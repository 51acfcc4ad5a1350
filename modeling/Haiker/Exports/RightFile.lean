import Haiker.Exports.Lifecycle
import Haiker.Rust.UuidText

/-!
This module contains when an export that becomes ready has the right file. Who finds an object takes it
for the file of an earlier attempt, and the storage is not the same as the database.
-/

open Rust
open Interleaving

namespace Exports

open GenerateExportJobHandler (storageKey)

/--
UUIDs are written with 36 characters, and each in its own way.
-/
structure Crates.WritesUuids (crates : Crates) : Prop where
  injective : Function.Injective crates.uuidToString
  length_eq : ∀ uuid, (crates.uuidToString uuid).length = 36

section Run

variable {ι : Type} [DecidableEq ι] (crates : Crates) (actors : ι → Actor) (id : ExportJobId)
  (c : Config State Client ι) (i : ι)

-- the file of one of the attempts at the job
def FileOf (routeVersionId : Uuid) (bytes : Bytes) : Prop :=
  ∃ j now timeoutSeconds payload, actors j = .worker now timeoutSeconds payload
    ∧ payload.exportJobId = id.val
    ∧ File crates c.shared.geometries routeVersionId (c.clients j).known.titles bytes

-- what becomes ready has the right file under its key
def RightFile : Prop :=
  ∀ row row', c.shared.exportJobs.find? id = some row → row.status ≠ .ready →
    (fire (Client.step crates) c i).shared.exportJobs.find? id = some row' → row'.status = .ready →
      ∃ key object, row'.objectStorageKey = some key
        ∧ (fire (Client.step crates) c i).shared.objects key = some object
        ∧ row'.checksum = some (crates.sha256Hex object.bytes)
        ∧ FileOf crates actors id (fire (Client.step crates) c i) row'.routeVersionId.val object.bytes

-- the object is still what has been downloaded; the one that was there already has been stored as it was
-- given, and the one that was verified does not have the hash of the file for another reason
def TrustsRightly : Prop :=
  ∀ row job key, c.shared.exportJobs.find? id = some row → row.status ≠ .ready →
    (c.clients i).stores c.shared = some job → job.id = id → job.status = .ready →
      job.objectStorageKey = some key →
        ∃ object, c.shared.objects key = some object
          ∧ (c.clients i).known.downloaded = some object.bytes
          ∧ ((c.clients i).known.given = none → object.asGiven = true)
          ∧ ∀ file, (c.clients i).known.given = some file → object.bytes = file

-- `TrustsRightly`, tried on the few rows, jobs and objects that there are
def trustsRightly : Bool :=
  (c.shared.exportJobs.find? id).all fun row => row.status = .ready ||
    ((c.clients i).stores c.shared).all fun job => job.id ≠ id || job.status ≠ .ready ||
      job.objectStorageKey.all fun key => (c.shared.objects key).any fun object =>
        (c.clients i).known.downloaded = some object.bytes
          && ((c.clients i).known.given.isSome || object.asGiven)
          && (c.clients i).known.given.all fun file => object.bytes = file

theorem trustsRightly_iff : trustsRightly id c i = true ↔ TrustsRightly id c i := by
  simp only [trustsRightly, TrustsRightly, Option.all_eq_true, Option.any_eq_true, Bool.or_eq_true,
    Bool.and_eq_true, decide_eq_true_eq, Option.isSome_iff_ne_none]
  grind

instance : Decidable (TrustsRightly id c i) := decidable_of_iff _ (trustsRightly_iff id c i)

-- the payloads are as they have been enqueued for the jobs
def Enqueued (s : State) : Prop :=
  ∀ j now timeoutSeconds payload row, actors j = .worker now timeoutSeconds payload →
    s.exportJobs.find? ⟨payload.exportJobId⟩ = some row → row.routeVersionId.val = payload.routeVersionId

-- what has been stored as it was given is the file of an attempt
def Stored : Prop :=
  ∀ key object, c.shared.objects key = some object → object.asGiven = true →
    ∃ j now timeoutSeconds payload, actors j = .worker now timeoutSeconds payload
      ∧ key = storageKey crates payload.ownerId payload.exportJobId
      ∧ File crates c.shared.geometries payload.routeVersionId (c.clients j).known.titles object.bytes

end Run

variable {crates : Crates} {s : State} {client : Client} {job row : ExportJob} {id : ExportJobId}

theorem Crates.WritesUuids.storageKey_inj (h : crates.WritesUuids) {ownerId exportJobId ownerId' exportJobId' : Uuid}
    (hkey : storageKey crates ownerId exportJobId = storageKey crates ownerId' exportJobId')
    : exportJobId = exportJobId' := by
  have hlength : ∀ uuid, (crates.uuidToString uuid).toList.length = 36 := by
    intro uuid
    rw [String.length_toList, h.length_eq]
  have hchars := congrArg String.toList hkey
  simp only [storageKey, String.toList_append, List.append_assoc] at hchars
  rw [List.append_cancel_left_eq] at hchars
  obtain ⟨_, hchars⟩ := List.append_inj hchars (by rw [hlength, hlength])
  rw [List.append_cancel_left_eq] at hchars
  obtain ⟨hid, _⟩ := List.append_inj hchars (by rw [hlength, hlength])
  exact h.injective (String.toList_inj.mp hid)

theorem File.mono {geometries : Uuid → Option Json} {routeVersionId : Uuid}
    {titles titles' : List (Option String)} {bytes : Bytes}
    (h : File crates geometries routeVersionId titles bytes) (htitles : titles ⊆ titles')
    : File crates geometries routeVersionId titles' bytes := by
  obtain ⟨geometryJson, segments, hgeometry, hparse, activityName, hname, hbytes⟩ := h
  exact ⟨geometryJson, segments, hgeometry, hparse, activityName, htitles hname, hbytes⟩

section Run

variable {ι : Type} [DecidableEq ι] {actors : ι → Actor} {geometries : Uuid → Option Json}
  {c : Config State Client ι} {i : ι}

theorem titles_fire (crates : Crates) (c : Config State Client ι) (i j : ι)
    : (c.clients j).known.titles ⊆ ((fire (Client.step crates) c i).clients j).known.titles := by
  by_cases hj : j = i
  . rw [hj, fire_clients_self]
    exact titles_step crates c.shared (c.clients i)
  . rw [fire_clients_ne _ c hj]
    exact List.Subset.refl _

theorem geometries_fire (crates : Crates) (c : Config State Client ι) (i : ι)
    : (fire (Client.step crates) c i).shared.geometries = c.shared.geometries :=
  geometries_step crates c.shared (c.clients i)

theorem Stored.fired (h : Stored crates actors c) (htracking : Tracking crates actors geometries c) (i : ι)
    : Stored crates actors (fire (Client.step crates) c i) := by
  intro key object hobject hgiven
  have hkept : c.shared.objects key = some object →
      ∃ j now timeoutSeconds payload, actors j = .worker now timeoutSeconds payload
        ∧ key = storageKey crates payload.ownerId payload.exportJobId
        ∧ File crates (fire (Client.step crates) c i).shared.geometries payload.routeVersionId
          ((fire (Client.step crates) c i).clients j).known.titles object.bytes := by
    intro hbefore
    obtain ⟨j, now, timeoutSeconds, payload, hactor, hkey, hfile⟩ := h key object hbefore hgiven
    refine ⟨j, now, timeoutSeconds, payload, hactor, hkey, ?_⟩
    rw [geometries_fire]
    exact hfile.mono (titles_fire crates c i j)
  have hstep : (fire (Client.step crates) c i).shared.objects
      = ((c.clients i).puts c.shared).elim c.shared.objects fun change =>
        put change.1 change.2 c.shared.objects := objects_step crates c.shared (c.clients i)
  rw [hstep] at hobject
  cases hputs : (c.clients i).puts c.shared with
  | none =>
    rw [hputs] at hobject
    exact hkept hobject
  | some change =>
    obtain ⟨key', object'⟩ := change
    rw [hputs] at hobject
    have hput : (if key = key' then object' else c.shared.objects key) = some object := hobject
    split at hput
    . next hsame =>
      rcases puts_cases hputs with ⟨body, bytes, hcommand, hstored⟩ | ⟨_, hstored⟩
      . rw [hput] at hstored
        cases hstored
        obtain ⟨now, timeoutSeconds, payload, hactor, hkey, hfile⟩ := htracking.asks hcommand
        refine ⟨i, now, timeoutSeconds, payload, hactor, hsame.trans hkey, ?_⟩
        simp only [decide_eq_true_eq] at hgiven
        rw [geometries_fire, htracking.stored, hgiven]
        exact hfile.mono (titles_fire crates c i i)
      . rw [hput] at hstored
        cases hstored
    . exact hkept hput

theorem Enqueued.fired (h : Enqueued actors c.shared) (crates : Crates) (i : ι)
    : Enqueued actors (fire (Client.step crates) c i).shared := by
  intro j now timeoutSeconds payload row' hactor hrow'
  obtain ⟨row, hrow⟩ : ∃ row, c.shared.exportJobs.find? ⟨payload.exportJobId⟩ = some row :=
    exists_of_find?_step hrow'
  rw [← h j now timeoutSeconds payload row hactor hrow]
  by_cases hstores : ∃ job, (c.clients i).stores c.shared = some job ∧ job.id = ⟨payload.exportJobId⟩
  . obtain ⟨job, hstores, hid⟩ := hstores
    have hafter : (fire (Client.step crates) c i).shared.exportJobs.find? ⟨payload.exportJobId⟩
        = some (setExport job row) := find?_step_of_stores hstores hid hrow
    rw [hrow'] at hafter
    rw [Option.some.inj hafter]
    rfl
  . have hafter : (fire (Client.step crates) c i).shared.exportJobs.find? ⟨payload.exportJobId⟩
        = c.shared.exportJobs.find? ⟨payload.exportJobId⟩ :=
      find?_step_of_other fun job hjob hid => hstores ⟨job, hjob, hid⟩
    rw [hrow', hrow] at hafter
    rw [Option.some.inj hafter]

-- only a completed job becomes ready
theorem WritesFrom.completes {known : Known} {copy : ExportJob} {actor : Actor}
    (h : WritesFrom crates geometries known copy actor job) (hready : job.status = .ready)
    : ∃ now timeoutSeconds payload bytes, actor = .worker now timeoutSeconds payload
        ∧ copy.id.val = payload.exportJobId ∧ known.downloaded = some bytes
        ∧ job.objectStorageKey = some (storageKey crates payload.ownerId payload.exportJobId)
        ∧ job.checksum = some (crates.sha256Hex bytes)
        ∧ ∀ file, known.given = some file →
          File crates geometries payload.routeVersionId known.titles file := by
  cases h with
  | starting | failing | expiring => cases hready
  | completing hstatus hid hdownloaded hgiven =>
    exact ⟨_, _, _, _, rfl, hid, hdownloaded, rfl, rfl, hgiven⟩
  | keeping hstatus =>
    rw [hready] at hstatus
    rcases hstatus with hstatus | hstatus
    . cases hstatus
    . cases hstatus

theorem rightFile_of_trustsRightly (hcrates : crates.WritesUuids)
    (htracking : Tracking crates actors geometries c) (hstored : Stored crates actors c)
    (henqueued : Enqueued actors c.shared) (h : TrustsRightly id c i) : RightFile crates actors id c i := by
  intro row row' hrow hstatus hrow' hready
  have hstores : ∃ job, (c.clients i).stores c.shared = some job ∧ job.id = id := by
    by_contra hother
    have hafter : (fire (Client.step crates) c i).shared.exportJobs.find? id
        = c.shared.exportJobs.find? id :=
      find?_step_of_other fun job hjob hid => hother ⟨job, hjob, hid⟩
    rw [hrow', hrow] at hafter
    rw [Option.some.inj hafter] at hready
    exact hstatus hready
  obtain ⟨job, hstores, hid⟩ := hstores
  have hafter : (fire (Client.step crates) c i).shared.exportJobs.find? id = some (setExport job row) :=
    find?_step_of_stores hstores hid hrow
  rw [hrow'] at hafter
  obtain rfl := Option.some.inj hafter
  obtain ⟨copy, _, hcopy, hwrites⟩ := htracking.writes hstores
  obtain ⟨now, timeoutSeconds, payload, bytes, hactor, hpayload, hdownloaded, hkey, hchecksum, hgiven⟩ :=
    hwrites.completes hready
  obtain ⟨object, hobject, hsame, hfound, hverified⟩ := h row job _ hrow hstatus hstores hid hready hkey
  have hbytes : bytes = object.bytes := Option.some.inj (hdownloaded.symm.trans hsame)
  have hpayloadId : payload.exportJobId = id.val := by rw [← hpayload, hcopy, hid]
  -- storing the job leaves the objects
  have hobjects : (fire (Client.step crates) c i).shared.objects = c.shared.objects := by
    refine (objects_step crates c.shared (c.clients i)).trans ?_
    rw [Client.puts, command?_of_stores hstores]
    rfl
  refine ⟨_, object, hkey, ?_, ?_, ?_⟩
  . rw [hobjects]
    exact hobject
  . rw [← hbytes]
    exact hchecksum
  . have hversion : ∀ j now timeoutSeconds payload, actors j = .worker now timeoutSeconds payload →
        payload.exportJobId = id.val → row.routeVersionId.val = payload.routeVersionId := by
      intro j now timeoutSeconds payload hactor hpayload
      apply henqueued j now timeoutSeconds payload row hactor
      rw [hpayload]
      exact hrow
    cases hfile : (c.clients i).known.given with
    | none =>
      obtain ⟨j, now', timeoutSeconds', payload', hactor', hkey', hfile'⟩ :=
        hstored _ object hobject (hfound hfile)
      have hpayloadId' : payload'.exportJobId = id.val :=
        (hcrates.storageKey_inj hkey').symm.trans hpayloadId
      refine ⟨j, now', timeoutSeconds', payload', hactor', hpayloadId', ?_⟩
      have hversion' : (setExport job row).routeVersionId.val = payload'.routeVersionId :=
        hversion j now' timeoutSeconds' payload' hactor' hpayloadId'
      rw [geometries_fire, hversion']
      exact hfile'.mono (titles_fire crates c i j)
    | some file =>
      refine ⟨i, now, timeoutSeconds, payload, hactor, hpayloadId, ?_⟩
      have hversion' : (setExport job row).routeVersionId.val = payload.routeVersionId :=
        hversion i now timeoutSeconds payload hactor hpayloadId
      rw [geometries_fire, htracking.stored, hversion', hverified file hfile]
      exact (hgiven file hfile).mono (titles_fire crates c i i)

end Run

-- the hashes of the files of the samples
def writtenCrates : Crates where
  uuidToString := Uuid.hyphenated
  sha256Hex := fun bytes =>
    if bytes = [0] then
      "6e340b9cffb37a989ca544e6bb780a2c78901d3fb33738768511a30617afa01d"
    else
      "f115c675514e68f74d2912df0340cf0eaf095fedeefaf34fbd545ce6195911b5"
  escape := fun name => name

def writtenConfig : Config State Client SampleClient :=
  ⟨sampleState, fun i => .start writtenCrates (sampleActors i) none⟩

-- every upload leaves a byte of its own, and the first worker is gone after it
def corruptedConfig : Config State Client SampleClient :=
  ⟨{ sampleState with faults := { noFaults with stored := fun _ _ => some [0] } },
    fun i => .start writtenCrates (sampleActors i) (if i = .first then some 7 else none)⟩

-- the second worker has found the byte and is about to store the completed job
def foundConfig : Config State Client SampleClient :=
  run (Client.step writtenCrates) corruptedConfig (List.replicate 7 .first ++ List.replicate 3 .second)

theorem geometries_foundConfig (id : Uuid)
    : (fire (Client.step writtenCrates) foundConfig .second).shared.geometries id = some (.arr []) := by
  have hkept : foundConfig.shared.geometries = sampleState.geometries :=
    run_induction (Client.step writtenCrates)
      (motive := fun c => c.shared.geometries = sampleState.geometries)
      (fun c i h => (geometries_fire writtenCrates c i).trans h) rfl _
  rw [geometries_fire, hkept]
  rfl

end Exports
