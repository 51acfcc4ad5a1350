import Mathlib.Logic.Relation
import Haiker.Exports.Lemmas.Steps

/-!
This module contains when the stored status of an export follows its state machine. The checks are made
on a copy, and `persist_export_job` does not ask for the status that is stored.
-/

open Rust
open Interleaving

namespace Exports

namespace ExportStatus

def Edge (status status' : ExportStatus) : Prop := status.transitionTo status' = .ok status'

-- how far an export has come
def rank : ExportStatus → Nat
  | .queued => 0
  | .generating => 1
  | .ready => 2
  | .failed | .expired => 3

def Before (status status' : ExportStatus) : Prop :=
  status.rank < status'.rank ∧ (status.isTerminal = false ∨ status' = .expired)

instance (status status' : ExportStatus) : Decidable (Edge status status') :=
  inferInstanceAs (Decidable (_ = _))

instance (status status' : ExportStatus) : Decidable (Before status status') :=
  inferInstanceAs (Decidable (_ ∧ _))

variable {status status' copy written : ExportStatus}

theorem Edge.eq_or_before (h : Edge status status') : status = status' ∨ Before status status' := by
  revert h
  cases status with
  | queued | generating | ready | failed | expired =>
    cases status' with
    | queued | generating | ready | failed | expired => decide

theorem Before.trans (h : Before copy status) (h' : Before status status') : Before copy status' := by
  refine ⟨h.1.trans h'.1, ?_⟩
  rcases h.2 with hopen | rfl
  . exact .inl hopen
  . exact absurd h'.1 (by cases status' <;> decide)

theorem Before.path (h : Before status status') : Relation.TransGen Edge status status' := by
  have hstart : Relation.TransGen Edge .queued .generating := .single (by decide)
  have hcomplete : Relation.TransGen Edge .generating .ready := .single (by decide)
  have hfail : Relation.TransGen Edge .generating .failed := .single (by decide)
  have hexpire : Relation.TransGen Edge .ready .expired := .single (by decide)
  cases status with
  | queued =>
    cases status' with
    | queued => exact absurd h (by decide)
    | generating => exact hstart
    | ready => exact hstart.trans hcomplete
    | failed => exact hstart.trans hfail
    | expired => exact (hstart.trans hcomplete).trans hexpire
  | generating =>
    cases status' with
    | queued | generating => exact absurd h (by decide)
    | ready => exact hcomplete
    | failed => exact hfail
    | expired => exact hcomplete.trans hexpire
  | ready =>
    cases status' with
    | queued | generating | ready | failed => exact absurd h (by decide)
    | expired => exact hexpire
  | failed | expired =>
    cases status' with
    | queued | generating | ready | failed | expired => exact absurd h (by decide)

theorem path_iff_before (hne : status ≠ status')
    : Relation.TransGen Edge status status' ↔ Before status status' := by
  constructor
  . intro h
    have hend : status = status' ∨ Before status status' := by
      clear hne
      induction h with
      | single hedge => exact hedge.eq_or_before
      | tail _ hedge ih =>
        rcases ih with rfl | hbefore
        . exact hedge.eq_or_before
        . rcases hedge.eq_or_before with rfl | hnext
          . exact .inr hbefore
          . exact .inr (hbefore.trans hnext)
    exact hend.resolve_left hne
  . exact Before.path

-- what is written from a copy goes on from what is stored, unless that is final and something else
theorem before_of_written (hstored : copy = status ∨ Before copy status)
    (hwritten : Before copy written ∨ copy = written ∧ copy.isTerminal = true)
    (hfinal : copy ≠ status → status.isTerminal = true → written = status) (hne : status ≠ written)
    : Before status written := by
  revert hstored hwritten hfinal hne
  cases copy with
  | queued | generating | ready | failed | expired =>
    cases status with
    | queued | generating | ready | failed | expired =>
      cases written with
      | queued | generating | ready | failed | expired => decide

end ExportStatus

section Run

variable {ι : Type} [DecidableEq ι] (crates : Crates) (id : ExportJobId) (c : Config State Client ι) (i : ι)

-- what a ready export has
structure Downloadable (row : ExportJob) : Prop where
  objectStorageKey : row.objectStorageKey.isSome
  checksum : row.checksum.isSome
  expiresAt : row.expiresAt.isSome

-- the stored status follows the edges, and what is ready has all that a download needs
def FollowsEdges : Prop :=
  ∀ row, c.shared.exportJobs.find? id = some row →
    ∃ row', (fire (Client.step crates) c i).shared.exportJobs.find? id = some row'
      ∧ (row'.status ≠ row.status → Relation.TransGen ExportStatus.Edge row.status row'.status)
      ∧ (row'.status = .ready → Downloadable row')

-- what has been ready at some time does not become generating or failed afterwards
def StaysReady (schedule : List ι) : Prop :=
  ∀ first second row row', first ++ second <+: schedule →
    (run (Client.step crates) c first).shared.exportJobs.find? id = some row → row.status = .ready →
      (run (Client.step crates) c (first ++ second)).shared.exportJobs.find? id = some row' →
        row'.status ≠ .generating ∧ row'.status ≠ .failed

-- what is final by now and was not when it was loaded is stored with the status that it has
def NotOvertaken : Prop :=
  ∀ row job copy, c.shared.exportJobs.find? id = some row →
    (c.clients i).stores c.shared = some job → job.id = id → (c.clients i).known.loaded = some copy →
      copy.status ≠ row.status → row.status.isTerminal = true → job.status = row.status

-- what is stored is what has been loaded, or comes after it
def Aged : Prop :=
  ∀ j row copy, c.shared.exportJobs.find? id = some row → (c.clients j).known.loaded = some copy →
    copy.id = id → copy.status = row.status ∨ copy.status.Before row.status

end Run

variable {crates : Crates} {geometries : Uuid → Option Json} {known : Known} {actor : Actor}
  {copy job row : ExportJob} {id : ExportJobId}

theorem WritesFrom.status (h : WritesFrom crates geometries known copy actor job)
    : copy.status.Before job.status ∨ copy.status = job.status ∧ copy.status.isTerminal = true := by
  cases h with
  | starting hqueued =>
    have hbefore : copy.status.Before .generating := by
      rw [hqueued]
      decide
    exact .inl hbefore
  | completing hstatus =>
    have hbefore : copy.status.Before .ready := by
      rcases hstatus with hstatus | hstatus
      . rw [hstatus]
        decide
      . rw [hstatus]
        decide
    exact .inl hbefore
  | keeping hstatus =>
    right
    refine ⟨rfl, ?_⟩
    rcases hstatus with hstatus | hstatus
    . rw [hstatus]
      rfl
    . rw [hstatus]
      rfl
  | failing reason hopen =>
    have hbefore : copy.status.Before .failed := by
      revert hopen
      cases copy.status with
      | queued | generating | ready | failed | expired => decide
    exact .inl hbefore
  | expiring hready =>
    have hbefore : copy.status.Before .expired := by
      rw [hready]
      decide
    exact .inl hbefore

theorem WritesFrom.status_of_expired (h : WritesFrom crates geometries known copy actor job)
    (hexpired : job.status = .expired) : copy.status = .ready ∨ copy.status = .expired := by
  cases h with
  | starting | completing | failing => cases hexpired
  | keeping => exact .inr hexpired
  | expiring hready => exact .inl hready

theorem WritesFrom.downloadable (h : WritesFrom crates geometries known copy actor job)
    (hready : job.status = .ready) (row : ExportJob) : Downloadable (setExport job row) := by
  cases h with
  | starting | failing | expiring => cases hready
  | completing => exact ⟨rfl, rfl, rfl⟩
  | keeping hstatus =>
    rcases hstatus with hstatus | hstatus
    . rw [hstatus] at hready
      cases hready
    . rw [hstatus] at hready
      cases hready

section Run

variable {ι : Type} [DecidableEq ι] {actors : ι → Actor} {c : Config State Client ι} {i : ι}

theorem followsEdges_iff (htracking : Tracking crates actors geometries c) (haged : Aged id c)
    (hcomplete : ∀ row, c.shared.exportJobs.find? id = some row → row.status = .ready → Downloadable row)
    : FollowsEdges crates id c i ↔ NotOvertaken id c i := by
  constructor
  . intro h row job copy hrow hstores hid hloaded hne hterminal
    obtain ⟨row', hrow', hpath, _⟩ := h row hrow
    have hafter : (fire (Client.step crates) c i).shared.exportJobs.find? id = some (setExport job row) :=
      find?_step_of_stores hstores hid hrow
    rw [hafter] at hrow'
    obtain rfl := Option.some.inj hrow'
    by_contra hsame
    have hbefore : row.status.Before job.status :=
      (ExportStatus.path_iff_before (Ne.symm hsame)).mp (hpath hsame)
    obtain ⟨copy', hloaded', hid', hwrites⟩ := htracking.writes hstores
    rw [hloaded] at hloaded'
    obtain rfl := Option.some.inj hloaded'
    have hold := haged i row copy hrow hloaded (hid'.trans hid)
    -- only an expired export comes after a final one, and it has been ready when it was loaded
    have hexpired : job.status = .expired :=
      hbefore.2.resolve_left (fun hopen => by rw [hterminal] at hopen; cases hopen)
    rcases hwrites.status_of_expired hexpired with hready | hexpired'
    . rw [hready] at hne hold
      have hstatus := (hold.resolve_left hne).2.resolve_left (by decide)
      exact hsame (hexpired.trans hstatus.symm)
    . rw [hexpired'] at hne hold
      have hstatus := (hold.resolve_left hne).2.resolve_left (by decide)
      exact hsame (hexpired.trans hstatus.symm)
  . intro h row hrow
    by_cases hstores : ∃ job, (c.clients i).stores c.shared = some job ∧ job.id = id
    . obtain ⟨job, hstores, hid⟩ := hstores
      obtain ⟨copy, hloaded, hid', hwrites⟩ := htracking.writes hstores
      refine ⟨setExport job row, find?_step_of_stores hstores hid hrow, ?_, ?_⟩
      . intro hne
        apply ExportStatus.Before.path
        exact ExportStatus.before_of_written (haged i row copy hrow hloaded (hid'.trans hid)) hwrites.status
          (h row job copy hrow hstores hid hloaded) (Ne.symm hne)
      . exact fun hready => hwrites.downloadable hready row
    . refine ⟨row, ?_, fun hne => absurd rfl hne, hcomplete row hrow⟩
      refine (find?_step_of_other ?_).trans hrow
      exact fun job hjob hid => hstores ⟨job, hjob, hid⟩

theorem Aged.fire (h : Aged id c) (hfollows : FollowsEdges crates id c i)
    : Aged id (fire (Client.step crates) c i) := by
  intro j row' copy hrow' hloaded hid
  obtain ⟨row, hrow⟩ : ∃ row, c.shared.exportJobs.find? id = some row := exists_of_find?_step hrow'
  obtain ⟨row'', hrow'', hpath, _⟩ := hfollows row hrow
  rw [hrow'] at hrow''
  obtain rfl := Option.some.inj hrow''
  have hkept : copy.status = row.status ∨ copy.status.Before row.status →
      copy.status = row'.status ∨ copy.status.Before row'.status := by
    intro hold
    by_cases hsame : row'.status = row.status
    . rw [hsame]
      exact hold
    . have hbefore := (ExportStatus.path_iff_before (Ne.symm hsame)).mp (hpath hsame)
      rcases hold with hold | hold
      . rw [hold]
        exact .inr hbefore
      . exact .inr (hold.trans hbefore)
  by_cases hj : j = i
  . rw [hj, fire_clients_self] at hloaded
    rcases loaded_step hloaded with hloaded | ⟨hstored, _⟩
    . exact hkept (h i row copy hrow hloaded hid)
    . rw [hid, hrow] at hstored
      rw [Option.some.inj hstored] at hkept
      exact hkept (.inl rfl)
  . rw [fire_clients_ne _ c hj] at hloaded
    exact hkept (h j row copy hrow hloaded hid)

theorem staysReady_of_followsEdges {schedule : List ι}
    (h : Along (Client.step crates) (FollowsEdges crates id) c schedule)
    : StaysReady crates id c schedule := by
  rintro first second row row' ⟨rest, rfl⟩ hrow hready hrow'
  rw [List.append_assoc, along_append, along_append] at h
  obtain ⟨_, hsecond, _⟩ := h
  -- from a ready export on, there are only ready and expired ones
  have hkept : ∀ (c : Config State Client ι) i,
      (∃ row, c.shared.exportJobs.find? id = some row ∧ (row.status = .ready ∨ row.status = .expired)) →
      FollowsEdges crates id c i →
      ∃ row, (fire (Client.step crates) c i).shared.exportJobs.find? id = some row
        ∧ (row.status = .ready ∨ row.status = .expired) := by
    rintro c i ⟨row, hrow, hstatus⟩ hfollows
    obtain ⟨row', hrow', hpath, _⟩ := hfollows row hrow
    refine ⟨row', hrow', ?_⟩
    by_cases hsame : row'.status = row.status
    . rw [hsame]
      exact hstatus
    . have hbefore := (ExportStatus.path_iff_before (Ne.symm hsame)).mp (hpath hsame)
      right
      apply hbefore.2.resolve_left
      rcases hstatus with hstatus | hstatus
      . rw [hstatus]
        decide
      . rw [hstatus]
        decide
  have hdone := Along.run_induction (Client.step crates) hkept hsecond ⟨row, hrow, .inl hready⟩
  obtain ⟨row'', hrow'', hstatus⟩ := hdone
  rw [run_append, hrow''] at hrow'
  obtain rfl := Option.some.inj hrow'
  rcases hstatus with hstatus | hstatus
  . rw [hstatus]
    decide
  . rw [hstatus]
    decide

/--
In every run of any number of attempts, expirations and downloads, each of which may be gone at any
point, the stored status of an export follows the edges, a ready one stays ready until it expires and has
all that a download needs, exactly as long as nobody stores another status over one that has become
final since it was loaded.
-/
theorem export_status_follows_edges_iff (crates : Crates) (actors : ι → Actor) (lifetimes : ι → Option Nat)
    (s : State) (id : ExportJobId)
    (hcomplete : ∀ row, s.exportJobs.find? id = some row → row.status = .ready → Downloadable row)
    (schedule : List ι)
    : Along (Client.step crates) (FollowsEdges crates id)
          ⟨s, fun i => .start crates (actors i) (lifetimes i)⟩ schedule
        ∧ StaysReady crates id ⟨s, fun i => .start crates (actors i) (lifetimes i)⟩ schedule
      ↔ Along (Client.step crates) (NotOvertaken id)
          ⟨s, fun i => .start crates (actors i) (lifetimes i)⟩ schedule := by
  have hstart : Aged id ⟨s, fun i => .start crates (actors i) (lifetimes i)⟩ := by
    intro j row copy _ hloaded
    cases hloaded
  have hiff : ∀ (c : Config State Client ι) i, (Tracking crates actors s.geometries c ∧ Aged id c
      ∧ ∀ row, c.shared.exportJobs.find? id = some row → row.status = .ready → Downloadable row) →
      (FollowsEdges crates id c i ↔ NotOvertaken id c i) :=
    fun c i h => followsEdges_iff h.1 h.2.1 h.2.2
  have hstep : ∀ (c : Config State Client ι) i, (Tracking crates actors s.geometries c ∧ Aged id c
      ∧ ∀ row, c.shared.exportJobs.find? id = some row → row.status = .ready → Downloadable row) →
      FollowsEdges crates id c i → Tracking crates actors s.geometries (fire (Client.step crates) c i)
        ∧ Aged id (fire (Client.step crates) c i)
        ∧ ∀ row, (fire (Client.step crates) c i).shared.exportJobs.find? id = some row →
          row.status = .ready → Downloadable row := by
    rintro c i ⟨htracking, haged, _⟩ hfollows
    refine ⟨htracking.fire i, haged.fire hfollows, ?_⟩
    intro row' hrow' hready
    obtain ⟨row, hrow⟩ : ∃ row, c.shared.exportJobs.find? id = some row := exists_of_find?_step hrow'
    obtain ⟨row'', hrow'', _, hdownloadable⟩ := hfollows row hrow
    rw [hrow'] at hrow''
    obtain rfl := Option.some.inj hrow''
    exact hdownloadable hready
  rw [← along_congr_of_reached (Client.step crates) hiff hstep
    ⟨tracking_start crates actors lifetimes s, hstart, hcomplete⟩ schedule]
  exact and_iff_left_of_imp staysReady_of_followsEdges

end Run

inductive SampleClient where
  | first | second | expirer | downloader
  deriving DecidableEq

-- the crates on the values of the samples
def sampleCrates : Crates where
  uuidToString := fun uuid => "00000000-0000-0000-0000-00000000000" ++ toString uuid.bits.toNat
  sha256Hex := fun _ => "f115c675514e68f74d2912df0340cf0eaf095fedeefaf34fbd545ce6195911b5"
  escape := fun name => name

def samplePayload : GenerateExportJob where
  exportJobId := ⟨1⟩
  activityId := ⟨2⟩
  routeVersionId := ⟨3⟩
  ownerId := ⟨4⟩
  format := "gpx"
  correlationId := ⟨1⟩

def sampleJob : ExportJob where
  id := ⟨⟨1⟩⟩
  activityId := ⟨⟨2⟩⟩
  routeVersionId := ⟨⟨3⟩⟩
  requestedBy := ⟨⟨4⟩⟩
  format := .gpx
  status := .queued
  idempotencyKey := "key"
  payloadHash := none
  objectStorageKey := none
  checksum := none
  failureReason := none
  expiresAt := none
  createdAt := 0
  updatedAt := 0

def noFaults : Faults where
  failure := fun _ => none
  generation := fun _ => none
  stored := fun _ body => some body

def sampleState : State where
  exportJobs := ⟨[sampleJob], by decide⟩
  geometries := fun _ => some (.arr [])
  titles := fun _ => some "Ridge"
  objects := fun _ => none
  faults := noFaults
  calls := 0

def sampleActors : SampleClient → Actor
  | .first | .second => .worker 0 300 samplePayload
  | .expirer => .expirer 0 ⟨⟨1⟩⟩
  | .downloader => .downloader 0 ⟨⟨1⟩⟩ ⟨⟨4⟩⟩

def sampleConfig : Config State Client SampleClient :=
  ⟨sampleState, fun i => .start sampleCrates (sampleActors i) none⟩

def sampleStatus (schedule : List SampleClient) : Option ExportStatus :=
  ((run (Client.step sampleCrates) sampleConfig schedule).shared.exportJobs.find? ⟨⟨1⟩⟩).map (·.status)

theorem export_status_follows_edges_iff_sampleConfig
    : Along (Client.step sampleCrates) (FollowsEdges sampleCrates ⟨⟨1⟩⟩) sampleConfig
          (List.replicate 10 .first)
        ∧ StaysReady sampleCrates ⟨⟨1⟩⟩ sampleConfig (List.replicate 10 .first)
      ↔ Along (Client.step sampleCrates) (NotOvertaken ⟨⟨1⟩⟩) sampleConfig (List.replicate 10 .first) := by
  apply export_status_follows_edges_iff sampleCrates sampleActors (fun _ => none) sampleState
  intro row hrow hready
  obtain rfl : sampleJob = row := Option.some.inj hrow
  cases hready

-- both workers have loaded the queued job when the first one completes it
def sampleRace : List SampleClient := [.first, .first, .second, .second] ++ List.replicate 8 .first

/--
A ready export is generating again when another worker stores the copy that it has loaded before.
-/
theorem ready_export_restarted
    : sampleStatus sampleRace = some .ready ∧ sampleStatus (sampleRace ++ [.second]) = some .generating
        ∧ ¬(Along (Client.step sampleCrates) (FollowsEdges sampleCrates ⟨⟨1⟩⟩) sampleConfig
            (sampleRace ++ [.second])
          ∧ StaysReady sampleCrates ⟨⟨1⟩⟩ sampleConfig (sampleRace ++ [.second])) := by
  have hready : sampleStatus sampleRace = some .ready := by decide
  have hgenerating : sampleStatus (sampleRace ++ [.second]) = some .generating := by decide
  refine ⟨hready, hgenerating, ?_⟩
  rintro ⟨_, hstays⟩
  obtain ⟨row, hrow, hstatus⟩ := Option.map_eq_some_iff.mp hready
  obtain ⟨row', hrow', hstatus'⟩ := Option.map_eq_some_iff.mp hgenerating
  exact (hstays sampleRace [.second] row row' List.prefix_rfl hrow hstatus hrow').1 hstatus'

end Exports
