import Haiker.Exports.Lemmas.Clients

/-!
This module contains what the steps of those who work on exports do.
-/

open Rust
open Interleaving

namespace Exports

/-
What a step does to the jobs.
-/

variable {crates : Crates} {s : State} {client : Client} {job row copy : ExportJob} {id : ExportJobId}

theorem find?_persist (job : ExportJob) (exportJobs : ExportTable) (id : ExportJobId)
    : (persist job exportJobs).find? id
        = (exportJobs.find? id).map fun row => if id = job.id then setExport job row else row := by
  unfold persist
  rw [Sql.Table.find?_updateWhere]
  cases h : exportJobs.find? id with
  | none => rfl
  | some row =>
    have hid : row.id = id := Sql.Table.key_of_find? h
    simp [hid]

theorem exportJobs_step (crates : Crates) (s : State) (client : Client)
    : (client.step crates s).1.exportJobs
        = (client.stores s).elim s.exportJobs fun job => persist job s.exportJobs := by
  unfold Client.step Client.stores Client.command?
  split
  . rfl
  . cases client.program with
    | done result => rfl
    | ask command next =>
      simp only [Program.step, Program.command?, answer, State.after]
      cases command with
      | update job =>
        simp only
        split
        . rfl
        . rfl
      | findById | findGeometry | findTitle | generate | exists_ | download | delete | setTitle =>
        split
        . rfl
        . rfl
      | upload key body =>
        split
        . simp only [State.carryOut]
          split
          . rfl
          . rfl
        . rfl

theorem find?_step_of_stores (hstores : client.stores s = some job) (hid : job.id = id)
    (hrow : s.exportJobs.find? id = some row)
    : (client.step crates s).1.exportJobs.find? id = some (setExport job row) := by
  rw [exportJobs_step, hstores, Option.elim_some, find?_persist, hrow, Option.map_some, if_pos hid.symm]

theorem find?_step_of_other (h : ∀ job, client.stores s = some job → job.id ≠ id)
    : (client.step crates s).1.exportJobs.find? id = s.exportJobs.find? id := by
  rw [exportJobs_step]
  cases hstores : client.stores s with
  | none => rfl
  | some job =>
    rw [Option.elim_some, find?_persist]
    simp [Ne.symm (h job hstores)]

theorem exists_of_find?_step (h : (client.step crates s).1.exportJobs.find? id = some row)
    : ∃ row, s.exportJobs.find? id = some row := by
  rw [exportJobs_step] at h
  cases hstores : client.stores s with
  | none =>
    rw [hstores] at h
    exact ⟨row, h⟩
  | some job =>
    rw [hstores, Option.elim_some, find?_persist] at h
    obtain ⟨row, hrow, _⟩ := Option.map_eq_some_iff.mp h
    exact ⟨row, hrow⟩

theorem objects_step (crates : Crates) (s : State) (client : Client)
    : (client.step crates s).1.objects
        = (client.puts s).elim s.objects fun (key, object) => put key object s.objects := by
  unfold Client.step Client.puts Client.command?
  split
  . rfl
  . cases client.program with
    | done result => rfl
    | ask command next =>
      simp only [Program.step, Program.command?, answer, State.after]
      cases command with
      | update | findById | findGeometry | findTitle | generate | exists_ | download | setTitle =>
        split
        . rfl
        . rfl
      | upload key body =>
        simp only
        split
        . simp only [State.carryOut]
          split
          . next hstored =>
            rw [hstored]
            rfl
          . next hstored =>
            rw [hstored]
            rfl
        . rfl
      | delete key =>
        simp only
        split
        . rfl
        . rfl

theorem puts_cases {key : String} {object : Option StoredObject} (h : client.puts s = some (key, object))
    : (∃ body bytes, client.command? = some (.upload key body) ∧ object = some ⟨bytes, bytes = body⟩)
        ∨ client.command? = some (.delete key) ∧ object = none := by
  unfold Client.puts at h
  split at h
  . next key' body hcommand =>
    split at h
    . obtain ⟨bytes, _, hput⟩ := Option.map_eq_some_iff.mp h
      cases hput
      exact .inl ⟨body, bytes, hcommand, rfl⟩
    . cases h
  . next key' hcommand =>
    split at h
    . cases h
      exact .inr ⟨hcommand, rfl⟩
    . cases h
  . cases h

theorem titles_step (crates : Crates) (s : State) (client : Client)
    : client.known.titles ⊆ (client.step crates s).2.known.titles := by
  unfold Client.step
  split
  . exact List.Subset.refl _
  . cases client.program with
    | done result => exact List.Subset.refl _
    | ask command next =>
      simp only [Program.learned]
      cases command with
      | findTitle activityId => exact List.subset_cons_self _ _
      | findById id =>
        simp only [Known.learn]
        split
        . exact List.Subset.refl _
        . exact List.Subset.refl _
      | download key =>
        simp only [Known.learn]
        split
        . exact List.Subset.refl _
        . exact List.Subset.refl _
      | update | findGeometry | generate | exists_ | upload | delete | setTitle =>
        exact List.Subset.refl _

-- a copy that is loaded is the one that is stored at the time
theorem loaded_step (h : (client.step crates s).2.known.loaded = some copy)
    : client.known.loaded = some copy
        ∨ s.exportJobs.find? copy.id = some copy ∧ (client.step crates s).1.exportJobs = s.exportJobs := by
  have hjobs := exportJobs_step crates s client
  unfold Client.step Client.stores Client.command? at *
  split at h
  . exact .inl h
  . next hlifetime =>
    rw [if_neg hlifetime, if_neg hlifetime] at hjobs
    cases hprogram : client.program with
    | done result =>
      rw [hprogram] at h
      exact .inl h
    | ask command next =>
      rw [hprogram] at h hjobs
      simp only [Program.learned, answer] at h
      cases command with
      | findById id =>
        simp only [Known.learn, reply, State.fails] at h
        split at h
        . next job hjob =>
          split at hjob
          . cases hjob
          . have hcopy : job = copy := Option.some.inj h
            have hfind := Except.ok.inj hjob
            rw [hcopy] at hfind
            right
            refine ⟨?_, ?_⟩
            . rw [Sql.Table.key_of_find? hfind]
              exact hfind
            . rw [if_neg hlifetime]
              exact hjobs
        . exact .inl h
      | download key =>
        simp only [Known.learn] at h
        split at h
        . exact .inl h
        . exact .inl h
      | update | findGeometry | findTitle | generate | exists_ | upload | delete | setTitle => exact .inl h

/-
What the clients have got stays what they ask from.
-/

theorem tells_reply {geometries : Uuid → Option Json} (h : s.geometries = geometries) (known : Known)
    (command : Command) : Tells crates geometries known command (reply crates s command) := by
  cases command with
  | findById id =>
    intro job hjob
    simp only [reply, State.fails] at hjob
    split at hjob
    . cases hjob
    . exact Sql.Table.key_of_find? (Except.ok.inj hjob)
  | findGeometry routeVersionId =>
    intro geometryJson hreply
    simp only [reply, State.fails] at hreply
    split at hreply
    . cases hreply
    . rw [← h]
      exact Except.ok.inj hreply
  | generate input =>
    intro bytes hbytes
    simp only [reply] at hbytes
    split at hbytes
    . cases hbytes
    . exact (Except.ok.inj hbytes).symm
  | update | findTitle | exists_ | download | upload | delete | setTitle => exact trivial

theorem geometries_after (s : State) (command : Command) : (s.after command).geometries = s.geometries := by
  unfold State.after
  split
  . cases command with
    | upload key body =>
      simp only [State.carryOut]
      split
      . rfl
      . rfl
    | update | findById | findGeometry | findTitle | generate | exists_ | download | delete
    | setTitle => rfl
  . rfl

theorem geometries_step (crates : Crates) (s : State) (client : Client)
    : (client.step crates s).1.geometries = s.geometries := by
  unfold Client.step
  split
  . rfl
  . cases client.program with
    | done result => rfl
    | ask command next => exact geometries_after s command

section Run

variable {ι : Type} [DecidableEq ι] {actors : ι → Actor} {geometries : Uuid → Option Json}
  {c : Config State Client ι} {i : ι}

structure Tracking (crates : Crates) (actors : ι → Actor) (geometries : Uuid → Option Json)
    (c : Config State Client ι) : Prop where
  stored : c.shared.geometries = geometries
  tracks : ∀ i, (c.clients i).program.Tracks (Asks crates geometries (actors i)) (Tells crates geometries)
    Known.learn (fun _ _ => True) (c.clients i).known

omit [DecidableEq ι] in
theorem tracking_start (crates : Crates) (actors : ι → Actor) (lifetimes : ι → Option Nat) (s : State)
    : Tracking crates actors s.geometries ⟨s, fun i => .start crates (actors i) (lifetimes i)⟩ where
  stored := rfl
  tracks := fun i => tracks_program crates s.geometries (actors i)

theorem Tracking.fire (h : Tracking crates actors geometries c) (i : ι)
    : Tracking crates actors geometries (fire (Client.step crates) c i) where
  stored := (geometries_step crates c.shared (c.clients i)).trans h.stored
  tracks := by
    intro j
    by_cases hj : j = i
    . rw [hj, fire_clients_self]
      unfold Client.step
      split
      . exact h.tracks i
      . apply (h.tracks i).step
        exact fun command _ => tells_reply h.stored _ command
    . rw [fire_clients_ne _ c hj]
      exact h.tracks j

omit [DecidableEq ι] in
theorem Tracking.asks (h : Tracking crates actors geometries c) {command : Command}
    (hcommand : (c.clients i).command? = some command)
    : Asks crates geometries (actors i) (c.clients i).known command := by
  unfold Client.command? at hcommand
  split at hcommand
  . cases hcommand
  . exact (h.tracks i).asks_of_command hcommand

theorem command?_of_stores (h : client.stores s = some job) : client.command? = some (.update job) := by
  unfold Client.stores at h
  split at h
  . next job' hcommand =>
    split at h
    . rw [hcommand, Option.some.inj h]
    . cases h
  . cases h

omit [DecidableEq ι] in
theorem Tracking.writes (h : Tracking crates actors geometries c)
    (hstores : (c.clients i).stores c.shared = some job)
    : ∃ copy, (c.clients i).known.loaded = some copy ∧ copy.id = job.id
        ∧ WritesFrom crates geometries (c.clients i).known copy (actors i) job :=
  h.asks (command?_of_stores hstores)

end Run

end Exports
