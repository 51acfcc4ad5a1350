import Haiker.Exports.Clients

/-!
This module contains that everyone who works on exports asks for what comes from what it has got.
-/

open Rust

namespace Exports

namespace ExportStatus

theorem eq_of_transitionTo {status target result : ExportStatus} (h : status.transitionTo target = .ok result)
    : result = target := by
  revert h
  cases status with
  | queued | generating | ready | failed | expired =>
    cases target with
    | queued | generating | ready | failed | expired =>
      intro h
      cases h <;> rfl

end ExportStatus

namespace ExportJob

variable {now : Timestamp} {job job' : ExportJob}

theorem moveTo_eq_ok {target : ExportStatus} (h : job.moveTo now target = .ok job')
    : job.status.transitionTo target = .ok target
        ∧ job' = { job with status := target, updatedAt := now } := by
  unfold moveTo at h
  cases htransition : job.status.transitionTo target with
  | error e =>
    rw [htransition] at h
    cases h
  | ok result =>
    rw [htransition] at h
    cases h
    rw [ExportStatus.eq_of_transitionTo htransition]
    exact ⟨rfl, rfl⟩

theorem startGenerating_eq_ok (h : job.startGenerating now = .ok job')
    : job' = { job with status := .generating, updatedAt := now } := (moveTo_eq_ok h).2

theorem completeWithVerifiedChecksum_eq_ok {key expected verified : String} {expiresAt : Timestamp}
    (h : job.completeWithVerifiedChecksum now key expected verified expiresAt = .ok job')
    : job' = { job with
        status := .ready
        objectStorageKey := some key
        checksum := some expected
        expiresAt := some expiresAt
        updatedAt := now
      } := by
  unfold completeWithVerifiedChecksum at h
  split at h
  . cases h
  . cases hmoved : job.moveTo now .ready with
    | error e =>
      rw [hmoved] at h
      cases h
    | ok moved =>
      rw [hmoved] at h
      cases h
      rw [(moveTo_eq_ok hmoved).2]

theorem fail_eq_ok {reason : String} (h : job.fail now reason = .ok job')
    : job' = { job with status := .failed, failureReason := some reason, updatedAt := now } := by
  unfold fail at h
  cases hmoved : job.moveTo now .failed with
  | error e =>
    rw [hmoved] at h
    cases h
  | ok moved =>
    rw [hmoved] at h
    cases h
    rw [(moveTo_eq_ok hmoved).2]

theorem expire_eq_ok (hstatus : job.status ≠ .expired) (h : job.expire now = .ok job')
    : job.status = .ready ∧ job' = { job with status := .expired, updatedAt := now } := by
  unfold expire at h
  rw [if_neg hstatus] at h
  obtain ⟨htransition, hjob'⟩ := moveTo_eq_ok h
  refine ⟨?_, hjob'⟩
  cases hcase : job.status with
  | ready => rfl
  | expired => exact absurd hcase hstatus
  | queued | generating | failed =>
    rw [hcase] at htransition
    cases htransition

end ExportJob

variable {crates : Crates} {geometries : Uuid → Option Json} {actor : Actor} {known : Known} {α : Type}

namespace GenerateExportJobHandler

theorem follows_orFail {failed : String} {result : Except String α} {post : α → Known → Prop}
    (h : ∀ a, result = .ok a → post a known)
    : Follows crates geometries actor (orFail failed result) known post := by
  intro a ha
  apply h a
  cases result with
  | ok b =>
    cases ha
    rfl
  | error e => cases ha

theorem follows_orFailWith {failed : String} {result : Except ExportError α} {post : α → Known → Prop}
    (h : ∀ a, result = .ok a → post a known)
    : Follows crates geometries actor (orFailWith failed result) known post := by
  apply follows_orFail
  intro a ha
  apply h a
  cases result with
  | ok b =>
    cases ha
    rfl
  | error e => cases ha

theorem follows_loadExportJob (id : Uuid)
    : Follows crates geometries actor (loadExportJob crates id) known fun job known' =>
        job.id.val = id ∧ known' = { known with loaded := some job } := by
  unfold loadExportJob
  apply Follows.bind
  refine follows_attempt ?_ ?_
  . exact trivial
  intro reply hreply
  apply Follows.bind
  apply follows_orFail
  rintro found rfl
  cases found with
  | none => exact follows_throw _ _ _
  | some job =>
    have hid : job.id = { val := id } := hreply job rfl
    refine follows_pure ⟨?_, rfl⟩
    rw [hid]

theorem follows_persistExportJob {copy job : ExportJob} {post : Unit → Known → Prop}
    (hloaded : known.loaded = some copy) (hid : copy.id = job.id)
    (hwrites : WritesFrom crates geometries known copy actor job) (h : post () known)
    : Follows crates geometries actor (persistExportJob job) known post := by
  unfold persistExportJob
  apply Follows.bind
  refine follows_attempt ?_ ?_
  . exact ⟨copy, hloaded, hid, hwrites⟩
  intro reply _
  apply follows_orFail
  intro _ _
  exact h

variable {now : Timestamp} {timeoutSeconds : Int} {payload : GenerateExportJob}

theorem follows_markFailed (reason : String)
    : Follows crates geometries (.worker now timeoutSeconds payload) (markFailed crates now payload reason)
        known fun _ _ => True := by
  unfold markFailed
  apply Follows.bind
  apply follows_lift
  apply Program.Tracks.mono (follows_loadExportJob payload.exportJobId)
  intro result known' hresult
  cases result with
  | error e => exact follows_pure trivial
  | ok job =>
    obtain ⟨_, rfl⟩ := hresult job rfl
    simp only
    split
    . exact follows_pure trivial
    . next hterminal =>
      cases hfailed : job.fail now reason with
      | error e => exact follows_pure trivial
      | ok failed =>
        have hjob := ExportJob.fail_eq_ok hfailed
        simp only
        apply Follows.bind
        refine follows_attempt ?_ ?_
        . refine ⟨job, rfl, ?_, ?_⟩
          . rw [hjob]
          . rw [hjob]
            exact .failing reason (Bool.eq_false_iff.mpr hterminal)
        . exact fun _ _ => follows_pure trivial

theorem follows_failWith (reason : String) (post : α → Known → Prop)
    : Follows crates geometries (.worker now timeoutSeconds payload) (failWith crates now payload reason)
        known post := by
  unfold failWith
  apply Follows.bind
  apply (follows_markFailed reason).mono
  exact fun _ _ _ => follows_throw _ _ _

theorem follows_completeExisting (hgiven : known.given = none)
    : Follows crates geometries (.worker now timeoutSeconds payload)
        (completeExisting crates now payload (storageKey crates payload.ownerId payload.exportJobId)) known
        fun _ _ => True := by
  unfold completeExisting
  apply Follows.bind
  apply (follows_loadExportJob payload.exportJobId).mono
  rintro copy known' ⟨hid, rfl⟩
  split
  . exact follows_pure trivial
  . next hready =>
    apply Follows.bind
    refine follows_attempt ?_ ?_
    . exact trivial
    intro reply _
    apply Follows.bind
    apply follows_orFail
    rintro bytes rfl
    have hcomplete : copy.status = .queued ∨ copy.status = .generating →
        ∀ status updatedAt job, ({ copy with status, updatedAt } : ExportJob).completeWithVerifiedChecksum
          now (storageKey crates payload.ownerId payload.exportJobId) (crates.sha256Hex bytes)
          (crates.sha256Hex bytes) (now + EXPIRATION) = .ok job →
        Follows crates geometries (.worker now timeoutSeconds payload) (persistExportJob job)
          { known with loaded := some copy, downloaded := some bytes } fun _ _ => True := by
      intro hstatus status updatedAt job hjob
      obtain rfl := ExportJob.completeWithVerifiedChecksum_eq_ok hjob
      refine follows_persistExportJob rfl rfl (.completing hstatus hid rfl ?_) trivial
      intro file hfile
      rw [hgiven] at hfile
      cases hfile
    simp only
    split
    . next hqueued =>
      apply Follows.bind
      apply follows_orFailWith
      intro job hjob
      obtain rfl := ExportJob.startGenerating_eq_ok hjob
      rw [if_pos rfl]
      apply Follows.bind
      apply follows_orFailWith
      exact fun job hjob => hcomplete (.inl hqueued) _ _ job hjob
    . next hqueued =>
      apply Follows.bind
      apply follows_pure
      split
      . next hgenerating =>
        apply Follows.bind
        apply follows_orFailWith
        exact fun job hjob => hcomplete (.inr hgenerating) copy.status copy.updatedAt job hjob
      . next hgenerating =>
        apply Follows.bind
        apply follows_pure
        refine follows_persistExportJob rfl rfl (.keeping ?_) trivial
        cases hstatus : copy.status with
        | failed => exact .inl rfl
        | expired => exact .inr rfl
        | queued => exact absurd hstatus hqueued
        | generating => exact absurd hstatus hgenerating
        | ready => exact absurd hstatus hready

theorem follows_readSegments
    : Follows crates geometries (.worker now timeoutSeconds payload) (readSegments crates now payload) known
        fun segments known' => known' = known
          ∧ ∃ geometryJson, geometries payload.routeVersionId = some geometryJson
            ∧ parseGeometryJson geometryJson = .ok segments := by
  have hgeometry : Follows crates geometries (.worker now timeoutSeconds payload)
      (loadGeometry crates payload.routeVersionId) known fun geometryJson known' => known' = known
        ∧ geometries payload.routeVersionId = some geometryJson := by
    unfold loadGeometry
    apply Follows.bind
    refine follows_attempt ?_ ?_
    . exact trivial
    intro reply hreply
    apply Follows.bind
    apply follows_orFail
    rintro found rfl
    cases found with
    | none => exact follows_throw _ _ _
    | some geometryJson => exact follows_pure ⟨rfl, hreply geometryJson rfl⟩
  unfold readSegments
  apply Follows.bind
  apply follows_lift
  apply Program.Tracks.mono hgeometry
  intro result known' hresult
  cases result with
  | error e => exact follows_failWith _ _
  | ok geometryJson =>
    obtain ⟨rfl, hstored⟩ := hresult geometryJson rfl
    simp only
    cases hparse : parseGeometryJson geometryJson with
    | error e => exact follows_failWith _ _
    | ok segments => exact follows_pure ⟨rfl, geometryJson, hstored, hparse⟩

theorem follows_readName
    : Follows crates geometries actor (readName payload) known fun name known' =>
        known'.given = known.given ∧ name ∈ known'.titles := by
  unfold readName
  apply Follows.bind
  refine follows_attempt ?_ ?_
  . exact trivial
  intro reply _
  cases reply with
  | ok name => exact follows_pure ⟨rfl, List.mem_cons_self⟩
  | error e => exact follows_pure ⟨rfl, List.mem_cons_self⟩

theorem follows_generate (input : GpxGeneratorInput)
    : Follows crates geometries (.worker now timeoutSeconds payload)
        (generate crates now timeoutSeconds payload input) known fun bytes known' =>
          known' = known ∧ bytes = gpxBytes crates input := by
  unfold generate
  simp only
  split
  . exact follows_failWith _ _
  . apply Follows.bind
    refine follows_attempt ?_ ?_
    . exact trivial
    intro reply hreply
    cases reply with
    | ok bytes => exact follows_pure ⟨rfl, hreply bytes rfl⟩
    | error fault =>
      cases fault with
      | panicked joinErr => exact follows_failWith _ _
      | timedOut => exact follows_failWith _ _

theorem follows_store {gpxBytes : Bytes}
    (hfile : File crates geometries payload.routeVersionId known.titles gpxBytes)
    : Follows crates geometries (.worker now timeoutSeconds payload)
        (store crates now payload (storageKey crates payload.ownerId payload.exportJobId) gpxBytes
          (crates.sha256Hex gpxBytes)) known
        fun verifiedChecksum known' => verifiedChecksum = crates.sha256Hex gpxBytes
          ∧ known'.titles = known.titles ∧ known'.given = some gpxBytes
          ∧ ∃ bytes, known'.downloaded = some bytes
            ∧ crates.sha256Hex bytes = crates.sha256Hex gpxBytes := by
  unfold store
  apply Follows.bind
  refine follows_attempt ?_ ?_
  . exact ⟨now, timeoutSeconds, payload, rfl, rfl, hfile⟩
  intro reply _
  cases reply with
  | error e => exact follows_failWith _ _
  | ok _ =>
    apply Follows.bind
    refine follows_attempt ?_ ?_
    . exact trivial
    intro reply _
    cases reply with
    | error e => exact follows_failWith _ _
    | ok verifiedBytes =>
      simp only
      split
      . next hverified =>
        exact follows_pure ⟨hverified.symm, rfl, rfl, verifiedBytes, rfl, hverified.symm⟩
      . exact follows_failWith _ _

theorem follows_complete {gpxBytes bytes : Bytes}
    (hfile : File crates geometries payload.routeVersionId known.titles gpxBytes)
    (hgiven : known.given = some gpxBytes)
    (hdownloaded : known.downloaded = some bytes)
    (hverified : crates.sha256Hex bytes = crates.sha256Hex gpxBytes) (verifiedChecksum : String)
    : Follows crates geometries (.worker now timeoutSeconds payload)
        (complete crates now payload (storageKey crates payload.ownerId payload.exportJobId)
          (crates.sha256Hex gpxBytes) verifiedChecksum) known fun _ _ => True := by
  unfold complete
  apply Follows.bind
  apply (follows_loadExportJob payload.exportJobId).mono
  rintro copy known' ⟨hid, rfl⟩
  split
  . next hgenerating =>
    apply Follows.bind
    apply follows_orFailWith
    intro job hjob
    obtain rfl := ExportJob.completeWithVerifiedChecksum_eq_ok hjob
    rw [← hverified]
    refine follows_persistExportJob rfl rfl (.completing (.inr hgenerating) hid hdownloaded ?_) trivial
    intro file hfile'
    simp only at hfile'
    rw [hgiven] at hfile'
    cases hfile'
    exact hfile
  . exact follows_pure trivial

theorem follows_finish
    : Follows crates geometries (.worker now timeoutSeconds payload)
        (finish crates now timeoutSeconds payload (storageKey crates payload.ownerId payload.exportJobId))
        known fun _ _ => True := by
  unfold finish
  apply Follows.bind
  apply follows_readSegments.mono
  rintro segments known' ⟨_, geometryJson, hgeometry, hparse⟩
  apply Follows.bind
  apply follows_readName.mono
  rintro activityName known'' ⟨_, hname⟩
  apply Follows.bind
  apply (follows_generate _).mono
  rintro gpxBytes known''' ⟨rfl, rfl⟩
  have hfile : File crates geometries payload.routeVersionId known'''.titles
      (gpxBytes crates { activityName, segments }) :=
    ⟨geometryJson, segments, hgeometry, hparse, activityName, hname, rfl⟩
  apply Follows.bind
  apply (follows_store hfile).mono
  rintro verifiedChecksum known'''' ⟨_, htitles, hgiven, bytes, hdownloaded, hverified⟩
  rw [← htitles] at hfile
  exact follows_complete hfile hgiven hdownloaded hverified _

theorem follows_process (hgiven : known.given = none)
    : Follows crates geometries (.worker now timeoutSeconds payload)
        (process crates now timeoutSeconds payload) known fun _ _ => True := by
  unfold process
  apply Follows.bind
  refine follows_attempt ?_ ?_
  . exact trivial
  intro reply _
  apply Follows.bind
  apply follows_orFail
  rintro found rfl
  cases found with
  | true => exact follows_completeExisting hgiven
  | false =>
    rw [if_neg Bool.false_ne_true]
    apply Follows.bind
    apply (follows_loadExportJob payload.exportJobId).mono
    rintro copy known' ⟨_, rfl⟩
    cases hstatus : copy.status with
    | ready => exact follows_pure trivial
    | failed | expired => exact follows_throw _ _ _
    | queued =>
      apply Follows.bind
      apply follows_orFailWith
      intro job hjob
      obtain rfl := ExportJob.startGenerating_eq_ok hjob
      apply Follows.bind
      exact follows_persistExportJob rfl rfl (.starting hstatus) follows_finish
    | generating => exact follows_finish

end GenerateExportJobHandler

theorem follows_orPersistenceError {result : Except String α} {post : α → Known → Prop}
    (h : ∀ a, result = .ok a → post a known)
    : Follows crates geometries actor (orPersistenceError result) known post := by
  intro a ha
  apply h a
  cases result with
  | ok b =>
    cases ha
    rfl
  | error e => cases ha

theorem follows_handleExpireExport (now : Timestamp) (exportId : ExportJobId)
    : Follows crates geometries (.expirer now exportId) (handleExpireExport now exportId) known
        fun _ _ => True := by
  unfold handleExpireExport
  apply Follows.bind
  refine follows_attempt ?_ ?_
  . exact trivial
  intro reply hreply
  apply Follows.bind
  apply follows_orPersistenceError
  rintro found rfl
  cases found with
  | none => exact follows_throw _ _ _
  | some copy =>
    obtain rfl : copy.id = exportId := hreply copy rfl
    simp only
    split
    . exact follows_pure trivial
    . next hstatus =>
      have hdelete : Follows crates geometries (.expirer now copy.id) (deleteArtifact copy)
          { known with loaded := some copy } fun _ known' => known'.loaded = some copy := by
        unfold deleteArtifact
        cases hkey : copy.objectStorageKey with
        | none => exact follows_pure rfl
        | some key =>
          apply Follows.bind
          refine follows_attempt ?_ ?_
          . exact ⟨now, copy, rfl, rfl, hkey⟩
          . exact fun _ _ => follows_orPersistenceError fun _ _ => rfl
      apply Follows.bind
      apply hdelete.mono
      intro _ known' hloaded
      apply Follows.bind
      apply follows_done
      intro job hjob
      obtain ⟨hready, rfl⟩ := ExportJob.expire_eq_ok hstatus hjob
      apply Follows.bind
      refine follows_attempt ?_ ?_
      . exact ⟨copy, hloaded, rfl, .expiring hready⟩
      . exact fun _ _ => follows_orPersistenceError fun _ _ => trivial

theorem follows_handleDownloadExport (now : Timestamp) (exportId : ExportJobId)
    (callerId : Identity.UserId)
    : Follows crates geometries actor (handleDownloadExport now exportId callerId) known
        fun _ _ => True := by
  unfold handleDownloadExport
  apply Follows.bind
  refine follows_attempt ?_ ?_
  . exact trivial
  intro reply _
  apply Follows.bind
  apply follows_orPersistenceError
  intro found _
  cases found with
  | none => exact follows_throw _ _ _
  | some job => exact follows_done fun _ _ => trivial

theorem tracks_program (crates : Crates) (geometries : Uuid → Option Json) (actor : Actor)
    : (actor.program crates).Tracks (Asks crates geometries actor) (Tells crates geometries) Known.learn
        (fun _ _ => True) .nothing := by
  cases actor with
  | worker now timeoutSeconds payload =>
    apply Program.Tracks.bind
    exact Program.Tracks.mono (GenerateExportJobHandler.follows_process rfl) fun _ _ _ => trivial
  | expirer now exportId =>
    apply Program.Tracks.bind
    exact Program.Tracks.mono (follows_handleExpireExport now exportId) fun _ _ _ => trivial
  | downloader now exportId callerId =>
    apply Program.Tracks.bind
    exact Program.Tracks.mono (follows_handleDownloadExport now exportId callerId) fun _ _ _ => trivial
  | renamer activityId title => exact ⟨trivial, fun _ _ => trivial⟩

end Exports
