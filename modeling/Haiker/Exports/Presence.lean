import Mathlib.Data.Fintype.Basic
import Haiker.Exports.RightFile

/-!
This module contains when the artifact of an export that is ready is in the object storage. An export
expires in two steps, the artifact goes first and the status is stored afterwards.
-/

open Rust
open Interleaving

namespace Exports

open GenerateExportJobHandler (storageKey)

namespace Client

def updates (client : Client) : Option ExportJob :=
  match client.command? with
  | some (.update job) => some job
  | _ => none

def deletes (client : Client) : Option String :=
  match client.command? with
  | some (.delete key) => some key
  | _ => none

def reads (client : Client) : Option ExportJobId :=
  match client.command? with
  | some (.findById id) => some id
  | _ => none

end Client

def Actor.mayDownload (row : ExportJob) : Actor → Bool
  | .downloader now _ callerId => (checkDownload now callerId row).isOk
  | _ => false

def HasArtifact (s : State) (job : ExportJob) : Prop :=
  ∃ key ∈ job.objectStorageKey, (s.objects key).isSome

-- the client is about to store that the job has expired
def AboutToExpire (id : ExportJobId) (client : Client) : Prop :=
  ∃ job ∈ client.updates, job.id = id ∧ job.status = .expired

instance (s : State) (job : ExportJob) : Decidable (HasArtifact s job) :=
  inferInstanceAs (Decidable (∃ key ∈ job.objectStorageKey, _))

instance (id : ExportJobId) (client : Client) : Decidable (AboutToExpire id client) :=
  inferInstanceAs (Decidable (∃ job ∈ client.updates, _))

section Run

variable {ι : Type} [DecidableEq ι] (crates : Crates) (actors : ι → Actor) (id : ExportJobId)
  (c : Config State Client ι) (i : ι)

-- a job is not left ready without its artifact
def ArtifactKept : Prop :=
  ∀ row ∈ c.shared.exportJobs.find? id, row.status = .ready →
    HasArtifact c.shared row ∨ ∃ j, AboutToExpire id (c.clients j)

-- what is given back for a download is there
def DownloadablePresent : Prop :=
  (∀ job, (c.clients i).command? ≠ none →
      ((fire (Client.step crates) c i).clients i).program = .done (some job) → job.id = id →
        HasArtifact (fire (Client.step crates) c i).shared job)
    ∧ ArtifactKept id (fire (Client.step crates) c i)

/--
Nobody gets in between the deletion and the update of an expiration, and the update is made.
-/
structure ExpiresUndisturbed : Prop where
  -- a download that is allowed is not made meanwhile, unless the file is there again
  downloading : ∀ row ∈ c.shared.exportJobs.find? id, (actors i).mayDownload row →
    (c.clients i).reads = some id → (∃ j, AboutToExpire id (c.clients j)) → HasArtifact c.shared row
  -- who deletes the artifact of a ready job gets to know it and is still there for the update
  deleting : ∀ row ∈ c.shared.exportJobs.find? id, row.status = .ready →
    ∀ key ∈ row.objectStorageKey, (c.clients i).deletes = some key → c.shared.takesEffect →
      (c.shared.faults.failure c.shared.calls).isNone ∧ (c.clients i).lifetime ≠ some 1
        ∨ ∃ j, j ≠ i ∧ AboutToExpire id (c.clients j)
  -- the update takes effect
  expiring : ∀ row ∈ c.shared.exportJobs.find? id, row.status = .ready → ¬HasArtifact c.shared row →
    AboutToExpire id (c.clients i) →
      c.shared.takesEffect ∨ ∃ j, j ≠ i ∧ AboutToExpire id (c.clients j)
  -- the artifact of a job that is completed has not been deleted meanwhile
  completing : ∀ job ∈ (c.clients i).stores c.shared, job.id = id → job.status = .ready →
    HasArtifact c.shared job ∨ ∃ j, AboutToExpire id (c.clients j)

end Run

/-
What a download and an expiration do, call by call.
-/

def expired (now : Timestamp) (job : ExportJob) : ExportJob :=
  { job with status := .expired, updatedAt := now }

theorem program_downloader (crates : Crates) (now : Timestamp) (exportId : ExportJobId)
    (callerId : Identity.UserId)
    : Actor.program crates (.downloader now exportId callerId) = .ask (.findById exportId) fun reply =>
        .done (match reply with
          | .ok (some job) => (checkDownload now callerId job).toOption
          | _ => none) := by
  apply congrArg (Program.ask _)
  funext reply
  cases reply with
  | error e => rfl
  | ok found =>
    cases found with
    | none => rfl
    | some job => rfl

-- what is left after the deletion
def storeExpired (now : Timestamp) (job : ExportJob) : Program Command.Reply (Option ExportJob) :=
  match job.expire now with
  | .error _ => .done none
  | .ok job => .ask (.update job) fun _ => .done none

theorem run_storeExpired (now : Timestamp) (job : ExportJob)
    : ((do
          let job ← ofExcept (job.expire now)
          orPersistenceError (← attempt (.update job)) : ExportM Unit).run >>= fun _ => pure none)
        = storeExpired now job := by
  unfold storeExpired
  cases hexpire : job.expire now with
  | error e => rfl
  | ok job' =>
    apply congrArg (Program.ask _)
    funext reply
    cases reply with
    | error e => rfl
    | ok _ => rfl

theorem program_expirer (crates : Crates) (now : Timestamp) (exportId : ExportJobId)
    : Actor.program crates (.expirer now exportId) = .ask (.findById exportId) fun reply =>
        match reply with
        | .ok (some job) =>
          if job.status = .expired then
            .done none
          else
            match job.objectStorageKey with
            | some key => .ask (.delete key) fun reply =>
              match reply with
              | .error _ => .done none
              | .ok _ => storeExpired now job
            | none => storeExpired now job
        | _ => .done none := by
  apply congrArg (Program.ask _)
  funext reply
  cases reply with
  | error e => rfl
  | ok found =>
    cases found with
    | none => rfl
    | some job =>
      change ((if job.status = .expired then pure () else do
        deleteArtifact job
        let job ← ofExcept (job.expire now)
        orPersistenceError (← attempt (.update job)) : ExportM Unit).run >>= fun _ => pure none) = _
      simp only
      split
      . rfl
      . rw [← run_storeExpired, deleteArtifact]
        cases job.objectStorageKey with
        | none => rfl
        | some key =>
          apply congrArg (Program.ask _)
          funext reply
          cases reply with
          | error e => rfl
          | ok _ => rfl

/--
An expiration before it has asked for anything, before the deletion, before the update, and in the end.
-/
inductive ExpirerAt (crates : Crates) (now : Timestamp) (exportId : ExportJobId)
    : Program Command.Reply (Option ExportJob) → Known → Prop where
  | starting (known) : ExpirerAt crates now exportId (Actor.program crates (.expirer now exportId)) known
  | deleting (key) {known job} (hloaded : known.loaded = some job) (hstatus : job.status ≠ .expired)
    : ExpirerAt crates now exportId (.ask (.delete key) fun reply =>
        match reply with
        | .error _ => .done none
        | .ok _ => storeExpired now job) known
  | storing (job known) : ExpirerAt crates now exportId (storeExpired now job) known
  | finished (known) : ExpirerAt crates now exportId (.done none) known

/--
How far a client has come.
-/
def Stage (crates : Crates) (actor : Actor) (client : Client) : Prop :=
  match actor with
  | .worker _ _ _ | .renamer _ _ => client.program.Ends (· = none)
  | .expirer now exportId => ExpirerAt crates now exportId client.program client.known
  | .downloader _ _ _ => client.program = actor.program crates ∨ ∃ result, client.program = .done result

section Stage

variable {crates : Crates} {now : Timestamp} {exportId : ExportJobId} {actor : Actor} {s : State}
  {client : Client} {known : Known} {job copy : ExportJob}
  {program : Program Command.Reply (Option ExportJob)}

theorem ExpirerAt.step (h : ExpirerAt crates now exportId program known) (s : State)
    : ExpirerAt crates now exportId (program.step (answer crates) s).2
        (program.learned Known.learn (answer crates) s known) := by
  cases h with
  | starting known =>
    rw [program_expirer]
    simp only [Program.step, Program.learned]
    generalize (answer crates (.findById exportId) s).1 = reply
    cases reply with
    | error e => exact .finished _
    | ok found =>
      cases found with
      | none => exact .finished _
      | some job =>
        simp only
        split
        . exact .finished _
        . next hstatus =>
          split
          . exact .deleting _ rfl hstatus
          . exact .storing job _
  | @deleting key known job hloaded =>
    simp only [Program.step, Program.learned]
    generalize (answer crates (.delete key) s).1 = reply
    cases reply with
    | error e => exact .finished _
    | ok _ => exact .storing job _
  | storing job known =>
    unfold storeExpired
    split
    . exact .finished _
    . exact .finished _
  | finished known => exact .finished _

theorem stage_start (crates : Crates) (actor : Actor) (lifetime : Option Nat)
    : Stage crates actor (.start crates actor lifetime) := by
  cases actor with
  | worker | renamer => exact Program.ends_bind _ fun _ => rfl
  | expirer now exportId => exact .starting _
  | downloader now exportId callerId => exact .inl rfl

theorem Stage.step (h : Stage crates actor client) (s : State)
    : Stage crates actor (client.step crates s).2 := by
  unfold Client.step
  split
  . exact h
  . cases actor with
    | worker | renamer => exact Program.Ends.step h (answer crates) s
    | expirer now exportId => exact ExpirerAt.step h s
    | downloader now exportId callerId =>
      right
      rcases h with h | ⟨result, h⟩
      . simp only [h, program_downloader]
        exact ⟨_, rfl⟩
      . simp only [h]
        exact ⟨result, rfl⟩

theorem ends_storeExpired (now : Timestamp) (job : ExportJob) : (storeExpired now job).Ends (· = none) := by
  unfold storeExpired
  split
  . rfl
  . exact fun _ => rfl

theorem ExpirerAt.ends (h : ExpirerAt crates now exportId program known) : program.Ends (· = none) := by
  cases h with
  | starting known => exact Program.ends_bind _ fun _ => rfl
  | deleting key =>
    intro reply
    cases reply with
    | error e => rfl
    | ok _ => exact ends_storeExpired now _
  | storing job known => exact ends_storeExpired now job
  | finished known => rfl

theorem checkDownload_eq_ok {callerId : Identity.UserId} (h : checkDownload now callerId copy = .ok job)
    : job = copy ∧ copy.status = .ready := by
  unfold checkDownload at h
  split at h
  . cases h
  . split at h
    . cases h
    . next hready =>
      split at h
      . cases h
      . exact ⟨(Except.ok.inj h).symm, Decidable.not_not.mp hready⟩

-- a client gives back what it has just read
theorem Stage.returns (h : Stage crates actor client) (hasks : client.command? ≠ none)
    (hreturns : (client.step crates s).2.program = .done (some job))
    : ∃ now exportId callerId, actor = .downloader now exportId callerId
        ∧ client.command? = some (.findById exportId) ∧ s.exportJobs.find? exportId = some job
        ∧ checkDownload now callerId job = .ok job := by
  have hafter := h.step s
  cases actor with
  | worker | renamer =>
    unfold Stage at hafter
    rw [hreturns] at hafter
    cases hafter
  | expirer now exportId =>
    have hends := ExpirerAt.ends hafter
    rw [hreturns] at hends
    cases hends
  | downloader now exportId callerId =>
    refine ⟨now, exportId, callerId, rfl, ?_⟩
    unfold Client.command? Client.step at *
    split at hasks
    . exact absurd rfl hasks
    . next hlifetime =>
      rw [if_neg hlifetime] at hreturns ⊢
      rcases h with h | ⟨result, h⟩
      . rw [h, program_downloader] at hreturns ⊢
        simp only [Program.step, answer, reply, State.fails] at hreturns
        have hresult := Program.done.inj hreturns
        split at hresult
        . next found hfound =>
          split at hfound
          . cases hfound
          . have hrow := Except.ok.inj hfound
            cases hcheck : checkDownload now callerId found with
            | error e =>
              rw [hcheck] at hresult
              cases hresult
            | ok job' =>
              obtain ⟨rfl, _⟩ := checkDownload_eq_ok hcheck
              rw [hcheck] at hresult
              obtain rfl := Option.some.inj hresult
              exact ⟨rfl, hrow, hcheck⟩
        . cases hresult
      . rw [h] at hasks
        exact absurd rfl hasks

theorem expire_of_ready (now : Timestamp) (hready : job.status = .ready)
    : job.expire now = .ok (expired now job) := by
  unfold ExportJob.expire ExportJob.moveTo
  rw [hready]
  rfl

-- an expiration that has deleted the artifact of a ready export stores the status next
theorem Stage.deletes {key : String} (h : Stage crates (.expirer now exportId) client)
    (hcommand : client.command? = some (.delete key)) (hloaded : client.known.loaded = some copy)
    (hstatus : copy.status = .ready ∨ copy.status = .expired) (hdone : s.faults.failure s.calls = none)
    (hlifetime : client.lifetime ≠ some 1)
    : (client.step crates s).2.command? = some (.update (expired now copy)) := by
  obtain ⟨program, known, lifetime⟩ := client
  unfold Client.command? at hcommand
  split at hcommand
  . cases hcommand
  . next hlifetime' =>
    have hmore : lifetime.map (· - 1) ≠ some 0 := by
      cases lifetime with
      | none => simp
      | some n =>
        simp only [ne_eq, Option.some.injEq] at hlifetime hlifetime'
        simp only [Option.map_some, ne_eq, Option.some.injEq]
        omega
    unfold Client.step
    rw [if_neg hlifetime', Client.command?, if_neg hmore]
    simp only [Stage] at h
    cases h with
    | starting known =>
      rw [program_expirer] at hcommand
      cases hcommand
    | deleting key' hloaded' hopen =>
      obtain rfl := Option.some.inj (hloaded.symm.trans hloaded')
      have hready := hstatus.resolve_right hopen
      simp only [Program.step, answer, reply, State.fails, hdone, storeExpired, expire_of_ready now hready]
      rfl
    | storing job known =>
      unfold storeExpired at hcommand
      split at hcommand
      . cases hcommand
      . cases hcommand
    | finished known => cases hcommand

end Stage

/-
What has a key has been ready, and the key is its own.
-/

def Keyed (crates : Crates) (job : ExportJob) : Prop :=
  ∀ key, job.objectStorageKey = some key →
    (job.status = .ready ∨ job.status = .expired) ∧ ∃ ownerId, key = storageKey crates ownerId job.id.val

section Keyed

variable {crates : Crates} {geometries : Uuid → Option Json} {actor : Actor} {known : Known}
  {copy job row : ExportJob}

theorem Keyed.none_of_open (h : Keyed crates copy) (hopen : copy.status ≠ .ready)
    (hopen' : copy.status ≠ .expired) : copy.objectStorageKey = none := by
  cases hkey : copy.objectStorageKey with
  | none => rfl
  | some key =>
    rcases (h key hkey).1 with hready | hexpired
    . exact absurd hready hopen
    . exact absurd hexpired hopen'

theorem Keyed.written (h : Keyed crates copy)
    (hwrites : WritesFrom crates geometries known copy actor job) : Keyed crates job := by
  have hopen : copy.objectStorageKey = none → job.objectStorageKey = copy.objectStorageKey →
      Keyed crates job := by
    intro hnone hsame key hkey
    rw [hsame, hnone] at hkey
    cases hkey
  cases hwrites with
  | starting hqueued =>
    exact hopen (h.none_of_open (by rw [hqueued]; decide) (by rw [hqueued]; decide)) rfl
  | @completing now timeoutSeconds payload bytes hstatus hpayload =>
    intro key hkey
    refine ⟨.inl rfl, payload.ownerId, ?_⟩
    simp only at hkey ⊢
    rw [hpayload]
    exact (Option.some.inj hkey).symm
  | keeping hstatus => exact h
  | failing reason hterminal =>
    apply hopen ?_ rfl
    apply h.none_of_open
    . intro hready
      rw [hready] at hterminal
      cases hterminal
    . intro hexpired
      rw [hexpired] at hterminal
      cases hterminal
  | expiring hready =>
    intro key hkey
    exact ⟨.inr rfl, (h key hkey).2⟩

theorem Keyed.set (h : Keyed crates job) (hid : row.id = job.id) : Keyed crates (setExport job row) := by
  intro key hkey
  obtain ⟨hstatus, ownerId, howner⟩ := h key hkey
  refine ⟨hstatus, ownerId, ?_⟩
  rw [id_setExport, hid]
  exact howner

theorem Crates.WritesUuids.id_eq (hcrates : crates.WritesUuids) (h : Keyed crates copy)
    (h' : Keyed crates row) {key : String} (hkey : copy.objectStorageKey = some key)
    (hkey' : row.objectStorageKey = some key) : copy.id = row.id := by
  obtain ⟨_, ownerId, howner⟩ := h key hkey
  obtain ⟨_, ownerId', howner'⟩ := h' key hkey'
  have hval := hcrates.storageKey_inj (howner.symm.trans howner')
  exact congrArg ExportJobId.mk hval

end Keyed

section Run

variable {ι : Type} [DecidableEq ι] {crates : Crates} {actors : ι → Actor}
  {geometries : Uuid → Option Json} {id : ExportJobId} {c : Config State Client ι} {i : ι}

/--
What holds as long as the expirations are not disturbed.
-/
structure Presence (crates : Crates) (actors : ι → Actor) (geometries : Uuid → Option Json)
    (id : ExportJobId) (c : Config State Client ι) : Prop where
  tracking : Tracking crates actors geometries c
  stages : ∀ j, Stage crates (actors j) (c.clients j)
  rows : ∀ id row, c.shared.exportJobs.find? id = some row → Keyed crates row
  copies : ∀ j copy, (c.clients j).known.loaded = some copy → Keyed crates copy
  kept : ArtifactKept id c

theorem Presence.stages_fire (h : Presence crates actors geometries id c) (j : ι)
    : Stage crates (actors j) ((fire (Client.step crates) c i).clients j) := by
  by_cases hj : j = i
  . rw [hj, fire_clients_self]
    exact (h.stages i).step c.shared
  . rw [fire_clients_ne _ c hj]
    exact h.stages j

theorem Presence.rows_fire (h : Presence crates actors geometries id c) (id' : ExportJobId)
    (row' : ExportJob) (hrow' : (fire (Client.step crates) c i).shared.exportJobs.find? id' = some row')
    : Keyed crates row' := by
  obtain ⟨row, hrow⟩ : ∃ row, c.shared.exportJobs.find? id' = some row := exists_of_find?_step hrow'
  by_cases hstores : ∃ job, (c.clients i).stores c.shared = some job ∧ job.id = id'
  . obtain ⟨job, hstores, hid⟩ := hstores
    have hafter : (fire (Client.step crates) c i).shared.exportJobs.find? id' = some (setExport job row) :=
      find?_step_of_stores hstores hid hrow
    rw [hrow'] at hafter
    rw [Option.some.inj hafter]
    obtain ⟨copy, hloaded, _, hwrites⟩ := h.tracking.writes hstores
    have hjob := (h.copies i copy hloaded).written hwrites
    exact hjob.set ((Sql.Table.key_of_find? hrow).trans hid.symm)
  . have hafter : (fire (Client.step crates) c i).shared.exportJobs.find? id'
        = c.shared.exportJobs.find? id' :=
      find?_step_of_other fun job hjob hid => hstores ⟨job, hjob, hid⟩
    rw [hrow'] at hafter
    exact h.rows id' row' hafter.symm

theorem Presence.copies_fire (h : Presence crates actors geometries id c) (j : ι) (copy : ExportJob)
    (hloaded : ((fire (Client.step crates) c i).clients j).known.loaded = some copy)
    : Keyed crates copy := by
  by_cases hj : j = i
  . rw [hj, fire_clients_self] at hloaded
    rcases loaded_step hloaded with hloaded | ⟨hstored, _⟩
    . exact h.copies i copy hloaded
    . exact h.rows copy.id copy hstored
  . rw [fire_clients_ne _ c hj] at hloaded
    exact h.copies j copy hloaded

theorem updates_eq_some {client : Client} {job : ExportJob}
    : client.updates = some job ↔ client.command? = some (.update job) := by
  unfold Client.updates
  constructor
  . intro h
    split at h
    . next job' hcommand =>
      rw [hcommand, Option.some.inj h]
    . cases h
  . intro h
    rw [h]

theorem deletes_of_command {client : Client} {key : String} (h : client.command? = some (.delete key))
    : client.deletes = some key := by
  rw [Client.deletes, h]

theorem HasArtifact.of_objects {s s' : State} {job : ExportJob} (h : HasArtifact s job)
    (hobjects : s'.objects = s.objects) : HasArtifact s' job := by
  unfold HasArtifact at *
  rw [hobjects]
  exact h

-- the other clients stay where they are
theorem aboutToExpire_fire {j : ι} (hj : j ≠ i) (h : AboutToExpire id (c.clients j))
    : ∃ j, AboutToExpire id ((fire (Client.step crates) c i).clients j) := by
  refine ⟨j, ?_⟩
  rw [fire_clients_ne _ c hj]
  exact h

theorem objects_fire_of_puts (h : (c.clients i).puts c.shared = none)
    : (fire (Client.step crates) c i).shared.objects = c.shared.objects := by
  refine (objects_step crates c.shared (c.clients i)).trans ?_
  rw [h]
  rfl

theorem puts_of_update {client : Client} {s : State} {job : ExportJob}
    (h : client.command? = some (.update job)) : client.puts s = none := by
  rw [Client.puts, h]

theorem takesEffect_of_puts {client : Client} {s : State} {change : String × Option StoredObject}
    (h : client.puts s = some change) : s.takesEffect := by
  unfold Client.puts at h
  split at h
  . split at h
    . assumption
    . cases h
  . split at h
    . assumption
    . cases h
  . cases h

-- the deletion of an artifact that goes through is followed by the update of its job
theorem Presence.expires_next (hcrates : crates.WritesUuids)
    (h : Presence crates actors geometries id c) {row : ExportJob} {key : String}
    (hrow : c.shared.exportJobs.find? id = some row) (hkey : row.objectStorageKey = some key)
    (hcommand : (c.clients i).command? = some (.delete key))
    (hdone : c.shared.faults.failure c.shared.calls = none) (hlifetime : (c.clients i).lifetime ≠ some 1)
    : AboutToExpire id ((fire (Client.step crates) c i).clients i) := by
  obtain ⟨now, copy, hactor, hloaded, hcopy⟩ := h.tracking.asks hcommand
  have hkeyed := h.copies i copy hloaded
  have hid : copy.id = id :=
    (hcrates.id_eq hkeyed (h.rows id row hrow) hcopy hkey).trans (Sql.Table.key_of_find? hrow)
  have hstage := h.stages i
  rw [hactor] at hstage
  have hnext : ((c.clients i).step crates c.shared).2.command? = some (.update (expired now copy)) :=
    hstage.deletes hcommand hloaded (hkeyed key hcopy).1 hdone hlifetime
  rw [fire_clients_self]
  exact ⟨expired now copy, updates_eq_some.mpr hnext, hid, rfl⟩

theorem Presence.kept_fire (hcrates : crates.WritesUuids)
    (h : Presence crates actors geometries id c) (hundisturbed : ExpiresUndisturbed actors id c i)
    : ArtifactKept id (fire (Client.step crates) c i) := by
  intro row' hrow' hready
  obtain ⟨row, hrow⟩ : ∃ row, c.shared.exportJobs.find? id = some row := exists_of_find?_step hrow'
  by_cases hstores : ∃ job, (c.clients i).stores c.shared = some job ∧ job.id = id
  . obtain ⟨job, hstores, hid⟩ := hstores
    have hafter : (fire (Client.step crates) c i).shared.exportJobs.find? id = some (setExport job row) :=
      find?_step_of_stores hstores hid hrow
    rw [hrow'] at hafter
    obtain rfl := Option.some.inj hafter
    have hcommand := command?_of_stores hstores
    rcases hundisturbed.completing job hstores hid hready with hartifact | ⟨j, hj⟩
    . left
      have hartifact' : HasArtifact c.shared (setExport job row) := hartifact
      exact hartifact'.of_objects (objects_fire_of_puts (puts_of_update hcommand))
    . right
      apply aboutToExpire_fire ?_ hj
      rintro rfl
      obtain ⟨job', hjob', _, hexpired⟩ := hj
      rw [updates_eq_some.mpr hcommand] at hjob'
      obtain rfl := Option.some.inj hjob'
      exact absurd (hready.symm.trans hexpired) (by decide)
  . have hsame : (fire (Client.step crates) c i).shared.exportJobs.find? id
        = c.shared.exportJobs.find? id :=
      find?_step_of_other fun job hjob hid => hstores ⟨job, hjob, hid⟩
    rw [hrow', hrow] at hsame
    obtain rfl := Option.some.inj hsame
    have hrest : ∀ j, AboutToExpire id (c.clients j) →
        HasArtifact (fire (Client.step crates) c i).shared row'
          ∨ ∃ j, AboutToExpire id ((fire (Client.step crates) c i).clients j) := by
      intro j hj
      by_cases hi : j = i
      . rw [hi] at hj
        have ⟨job, hjob, hid, _⟩ := hj
        have hcommand := updates_eq_some.mp hjob
        by_cases hartifact : HasArtifact c.shared row'
        . exact .inl (hartifact.of_objects (objects_fire_of_puts (puts_of_update hcommand)))
        . rcases hundisturbed.expiring row' hrow hready hartifact hj with heffect | ⟨j, hj, hexpires⟩
          . refine absurd ⟨job, ?_, hid⟩ hstores
            rw [Client.stores, hcommand]
            exact if_pos heffect
          . exact .inr (aboutToExpire_fire hj hexpires)
      . exact .inr (aboutToExpire_fire hi hj)
    rcases h.kept row' hrow hready with ⟨key, hkey, hobject⟩ | ⟨j, hj⟩
    . cases hputs : (c.clients i).puts c.shared with
      | none => exact .inl ⟨key, hkey, by rw [objects_fire_of_puts hputs]; exact hobject⟩
      | some change =>
        obtain ⟨key', object⟩ := change
        have hobjects : (fire (Client.step crates) c i).shared.objects
            = put key' object c.shared.objects := by
          refine (objects_step crates c.shared (c.clients i)).trans ?_
          rw [hputs]
          rfl
        by_cases hother : key = key'
        . subst hother
          rcases puts_cases hputs with ⟨body, bytes, _, rfl⟩ | ⟨hcommand, _⟩
          . left
            refine ⟨key, hkey, ?_⟩
            rw [hobjects, put, if_pos rfl]
            rfl
          . right
            rcases hundisturbed.deleting row' hrow hready key hkey (deletes_of_command hcommand)
              (takesEffect_of_puts hputs) with ⟨hdone, hlifetime⟩ | ⟨j, hj, hexpires⟩
            . exact ⟨i, h.expires_next hcrates hrow hkey hcommand (Option.isNone_iff_eq_none.mp hdone)
                hlifetime⟩
            . exact aboutToExpire_fire hj hexpires
        . left
          refine ⟨key, hkey, ?_⟩
          rw [hobjects, put, if_neg hother]
          exact hobject
    . exact hrest j hj

theorem Presence.fired (hcrates : crates.WritesUuids) (h : Presence crates actors geometries id c)
    (hundisturbed : ExpiresUndisturbed actors id c i)
    : Presence crates actors geometries id (fire (Client.step crates) c i) where
  tracking := h.tracking.fire i
  stages := h.stages_fire
  rows := h.rows_fire
  copies := h.copies_fire
  kept := h.kept_fire hcrates hundisturbed

theorem Presence.downloadable (hcrates : crates.WritesUuids) (h : Presence crates actors geometries id c)
    (hundisturbed : ExpiresUndisturbed actors id c i) : DownloadablePresent crates id c i := by
  refine ⟨?_, h.kept_fire hcrates hundisturbed⟩
  intro job hasks hreturns hid
  rw [fire_clients_self] at hreturns
  obtain ⟨now, exportId, callerId, hactor, hcommand, hrow, hcheck⟩ := (h.stages i).returns hasks hreturns
  obtain rfl : exportId = id := (Sql.Table.key_of_find? hrow).symm.trans hid
  have hpresent : HasArtifact c.shared job := by
    rcases h.kept job hrow (checkDownload_eq_ok hcheck).2 with hartifact | hexpires
    . exact hartifact
    . apply hundisturbed.downloading job hrow ?_ ?_ hexpires
      . rw [hactor, Actor.mayDownload, hcheck]
        rfl
      . rw [Client.reads, hcommand]
  apply hpresent.of_objects
  apply objects_fire_of_puts
  rw [Client.puts, hcommand]

/--
In every run of any number of attempts, expirations and downloads, each of which may be gone at any
point, what is given back for a download has its artifact in the storage, and no export is left ready
without it, as long as the expirations are not disturbed.
-/
theorem downloadable_present_of_undisturbed (crates : Crates) (hcrates : crates.WritesUuids)
    (actors : ι → Actor) (lifetimes : ι → Option Nat) (s : State) (id : ExportJobId)
    (hkeyed : ∀ id row, s.exportJobs.find? id = some row → Keyed crates row)
    (hpresent : ∀ row, s.exportJobs.find? id = some row → row.status = .ready → HasArtifact s row)
    (schedule : List ι)
    (hundisturbed : Along (Client.step crates) (ExpiresUndisturbed actors id)
      ⟨s, fun i => .start crates (actors i) (lifetimes i)⟩ schedule)
    : Along (Client.step crates) (DownloadablePresent crates id)
        ⟨s, fun i => .start crates (actors i) (lifetimes i)⟩ schedule := by
  have hstart : Presence crates actors s.geometries id
      ⟨s, fun i => .start crates (actors i) (lifetimes i)⟩ := {
    tracking := tracking_start crates actors lifetimes s
    stages := fun j => stage_start crates (actors j) (lifetimes j)
    rows := hkeyed
    copies := fun j copy hloaded => by cases hloaded
    kept := fun row hrow hready => .inl (hpresent row hrow hready)
  }
  exact Along.of_reached (Client.step crates) (fun _ _ h => h.downloadable hcrates)
    (fun _ _ h => h.fired hcrates) hstart hundisturbed

end Run

instance : Fintype SampleClient where
  elems := {.first, .second, .expirer, .downloader}
  complete := by
    intro i
    cases i with
    | first | second | expirer | downloader => decide

set_option synthInstance.maxSize 256 in
instance (actors : SampleClient → Actor) (id : ExportJobId) (c : Config State Client SampleClient)
    (i : SampleClient) : Decidable (ExpiresUndisturbed actors id c i) :=
  decidable_of_iff (_ ∧ _ ∧ _ ∧ _)
    ⟨fun ⟨h₁, h₂, h₃, h₄⟩ => ⟨h₁, h₂, h₃, h₄⟩,
      fun h => ⟨h.downloading, h.deleting, h.expiring, h.completing⟩⟩

instance (id : ExportJobId) (c : Config State Client SampleClient) : Decidable (ArtifactKept id c) :=
  inferInstanceAs (Decidable (∀ row ∈ c.shared.exportJobs.find? id, _))

-- an export that is completed, downloaded and expires
def sampleExpiration : List SampleClient :=
  List.replicate 10 .first ++ [.downloader] ++ List.replicate 3 .expirer

theorem downloadable_present_of_undisturbed_writtenConfig
    : Along (Client.step writtenCrates) (ExpiresUndisturbed sampleActors ⟨⟨1⟩⟩) writtenConfig
          sampleExpiration
        ∧ Along (Client.step writtenCrates) (DownloadablePresent writtenCrates ⟨⟨1⟩⟩) writtenConfig
            sampleExpiration := by
  have hundisturbed : Along (Client.step writtenCrates) (ExpiresUndisturbed sampleActors ⟨⟨1⟩⟩)
      writtenConfig sampleExpiration := by decide
  refine ⟨hundisturbed, ?_⟩
  apply downloadable_present_of_undisturbed writtenCrates
    ⟨Uuid.hyphenated_injective, Uuid.length_hyphenated⟩ sampleActors (fun _ => none) sampleState ⟨⟨1⟩⟩
    ?_ ?_ _ hundisturbed
  . intro id row hrow key hkey
    have hmem : row ∈ [sampleJob] := List.mem_of_find?_eq_some hrow
    rw [List.mem_singleton.mp hmem] at hkey
    cases hkey
  . intro row hrow hready
    obtain rfl : sampleJob = row := Option.some.inj hrow
    cases hready

-- the expiration is gone after the deletion
def interruptedConfig : Config State Client SampleClient :=
  ⟨sampleState,
    fun i => .start writtenCrates (sampleActors i) (if i = .expirer then some 2 else none)⟩

/--
The export is left ready without its artifact.
-/
theorem left_ready_without_artifact
    : ¬Along (Client.step writtenCrates) (DownloadablePresent writtenCrates ⟨⟨1⟩⟩) interruptedConfig
        (List.replicate 10 .first ++ [.expirer] ++ [.expirer]) := by
  intro h
  have hleft : ¬ArtifactKept ⟨⟨1⟩⟩ (fire (Client.step writtenCrates) (run (Client.step writtenCrates)
      interruptedConfig (List.replicate 10 .first ++ [.expirer])) .expirer) := by decide
  exact hleft h.last.2

end Exports
