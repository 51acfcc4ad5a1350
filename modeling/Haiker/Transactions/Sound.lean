import Haiker.Concurrency.Interleaving
import Haiker.Transactions.Lemmas.Session

/-!
This module contains what a transaction relies on while others are at work: what it has locked is as it
has found it, and the version that it goes on from is still there.
-/

open Rust
open Interleaving
open RouteVersioning

namespace Transactions

variable {ι : Type} {me other : ι} {s s' : Session ι}

-- the statements before `remaining` are done
def DoneBefore {ε : Type} (me : ι) (s : Session ι) (statements remaining : List (SqlStatement ε)) : Prop :=
  ∃ done, statements = done ++ remaining ∧ ∀ statement ∈ done, statement.Done me s.db s.locks

-- versions are not changed, and not deleted
def KeepsVersions (db db' : RouteVersioning.Database) : Prop :=
  ∀ id row, db.routeVersions.find? id = some row → db'.routeVersions.find? id = some row

/--
What a step of somebody else leaves to `me`.
-/
structure Spares (me : ι) (s s' : Session ι) : Prop where
  leaves : Statement.Leaves Same me s.db s.locks s'.db s'.locks
  versions : KeepsVersions s.db.toDatabase s'.db.toDatabase

namespace Publication

-- the draft is locked, and is as it was read
def HasDraft (publication : Publication) (me : ι) (s : Session ι) (draft : RouteEditing.DraftRow)
    (coords : List (F64 × F64)) : Prop :=
  s.locks (.draft publication.data.draftId.val) = some me
    ∧ publication.readDraft s.db.toDatabase = .ok (draft, coords)

def Sound (publication : Publication) (me : ι) (s : Session ι) : Prop :=
  match publication.phase with
  | .locked draft coords => publication.HasDraft me s draft coords
  | .writing basis remaining => DoneBefore me s (publication.statements basis) remaining
    ∧ publication.HasDraft me s basis.draft basis.flatCoords
    ∧ s.db.routeVersions.find? basis.parent.id = some basis.parent
    ∧ basis.parent.activityId = basis.draft.activityId
  | .start | .passed | .finished _ => True

end Publication

def ImportCommit.Sound (importCommit : ImportCommit) (me : ι) (s : Session ι) : Prop :=
  match importCommit.phase with
  | .writing remaining => DoneBefore me s importCommit.statements remaining
  | .finished _ => True

def Client.Sound (me : ι) (s : Session ι) (client : Client ι) : Prop :=
  client.me = me ∧ match client.transaction with
    | .publish publication => publication.Sound me s
    | .commit importCommit => importCommit.Sound me s
    | .broken => True

theorem DoneBefore.next {ε : Type} {statements remaining : List (SqlStatement ε)}
    {statement : SqlStatement ε} (h : DoneBefore me s statements (statement :: remaining))
    (hdone : statement.Done me s.db (s.locks.acquire me (statement.keys s.db)))
    : DoneBefore me { s with locks := s.locks.acquire me (statement.keys s.db) } statements remaining := by
  obtain ⟨done, hstatements, hbefore⟩ := h
  refine ⟨done ++ [statement], by rw [hstatements, List.append_assoc, List.singleton_append], ?_⟩
  intro other hother
  obtain hother | hother := List.mem_append.mp hother
  . exact (hbefore other hother).acquire _
  . rw [List.mem_singleton.mp hother]
    exact hdone

theorem DoneBefore.spared {ε : Type} {statements remaining : List (SqlStatement ε)}
    (h : DoneBefore me s statements remaining)
    (hlocal : ∀ statement ∈ statements, statement.Local Same) (hspares : Spares me s s')
    : DoneBefore me s' statements remaining := by
  obtain ⟨done, hstatements, hbefore⟩ := h
  refine ⟨done, hstatements, ?_⟩
  intro statement hstatement
  apply (hbefore statement hstatement).leaves _ hspares.leaves
  apply hlocal
  rw [hstatements]
  exact List.mem_append_left _ hstatement

theorem DoneBefore.all {ε : Type} {statements : List (SqlStatement ε)} (h : DoneBefore me s statements [])
    : ∀ statement ∈ statements, statement.Done me s.db s.locks := by
  obtain ⟨done, hstatements, hbefore⟩ := h
  rw [hstatements, List.append_nil]
  exact hbefore

/-
The steps of the others
-/

namespace Publication

variable {publication : Publication}

theorem Sound.of_writing {basis : Basis} {remaining : List (SqlStatement RouteVersioningError)}
    (h : publication.Sound me s) (hphase : publication.phase = .writing basis remaining)
    : DoneBefore me s (publication.statements basis) remaining
        ∧ publication.HasDraft me s basis.draft basis.flatCoords
        ∧ s.db.routeVersions.find? basis.parent.id = some basis.parent
        ∧ basis.parent.activityId = basis.draft.activityId := by
  unfold Sound at h
  rw [hphase] at h
  exact h

theorem readDraft_of_same (publication : Publication) {db db' : Imports.Database}
    (h : Same db db' (.draft publication.data.draftId.val))
    : publication.readDraft db'.toDatabase = publication.readDraft db.toDatabase := by
  have hrow : db'.routeEditing.drafts.find? publication.data.draftId.val
      = db.routeEditing.drafts.find? publication.data.draftId.val := h
  unfold readDraft lockDraft
  rw [hrow]

theorem HasDraft.spared {draft : RouteEditing.DraftRow} {coords : List (F64 × F64)}
    (h : publication.HasDraft me s draft coords) (hspares : Spares me s s')
    : publication.HasDraft me s' draft coords := by
  obtain ⟨hsame, hheld⟩ := hspares.leaves _ h.1
  exact ⟨hheld, (publication.readDraft_of_same hsame).trans h.2⟩

theorem Sound.spared (h : publication.Sound me s) (hspares : Spares me s s')
    : publication.Sound me s' := by
  unfold Sound at h ⊢
  split
  . next draft coords hphase =>
    rw [hphase] at h
    exact HasDraft.spared h hspares
  . next basis remaining hphase =>
    rw [hphase] at h
    obtain ⟨hdone, hdraft, hparent, hactivity⟩ := h
    exact ⟨hdone.spared (publication.local_statements basis) hspares, hdraft.spared hspares,
      hspares.versions _ _ hparent, hactivity⟩
  . trivial
  . trivial
  . trivial

end Publication

theorem ImportCommit.Sound.spared {importCommit : ImportCommit} (h : importCommit.Sound me s)
    (hspares : Spares me s s') : importCommit.Sound me s' := by
  unfold ImportCommit.Sound at h ⊢
  split
  . next remaining hphase =>
    rw [hphase] at h
    exact DoneBefore.spared h importCommit.local_statements hspares
  . trivial

theorem Client.Sound.spared {client : Client ι} (h : client.Sound me s) (hspares : Spares me s s')
    : client.Sound me s' := by
  refine ⟨h.1, ?_⟩
  have hsound := h.2
  split
  . next publication htransaction =>
    rw [htransaction] at hsound
    exact Publication.Sound.spared hsound hspares
  . next importCommit htransaction =>
    rw [htransaction] at hsound
    exact ImportCommit.Sound.spared hsound hspares
  . trivial

/-
The own steps
-/

variable [DecidableEq ι]

theorem spares_acquire {keys : List Key} (havailable : s.locks.available me keys = true)
    (hother : other ≠ me) : Spares other s ⟨s.db, s.locks.acquire me keys⟩ :=
  ⟨fun _ hk => ⟨.refl _ _, Locks.acquire_of_other havailable hother hk⟩, fun _ _ hrow => hrow⟩

theorem spares_release (hother : other ≠ me) : Spares other s ⟨s.db, s.locks.release me⟩ :=
  ⟨fun _ hk => ⟨.refl _ _, Locks.release_of_other hother hk⟩, fun _ _ hrow => hrow⟩

omit [DecidableEq ι] in
theorem Spares.refl (other : ι) (s : Session ι) : Spares other s s :=
  ⟨fun _ hk => ⟨.refl _ _, hk⟩, fun _ _ hrow => hrow⟩

-- a commit changes what its statements have locked, and nothing else
theorem spares_commit {ε : Type} {statements : List (SqlStatement ε)} {db : Imports.Database}
    (hdone : ∀ statement ∈ statements, statement.Done me s.db s.locks)
    (hsame : ∀ k, (∀ statement ∈ statements, k ∉ statement.keys s.db) → Same s.db db k)
    (hversions : KeepsVersions s.db.toDatabase db.toDatabase) (hother : other ≠ me)
    : Spares other s ⟨db, s.locks.release me⟩ := by
  refine ⟨?_, hversions⟩
  intro k hk
  refine ⟨hsame k ?_, Locks.release_of_other hother hk⟩
  intro statement hstatement hmem
  have hheld := (hdone statement hstatement).held k hmem
  rw [hk, Option.some.injEq] at hheld
  exact hother hheld

namespace Publication

/--
All that a step can do.
-/
inductive Step (me : ι) (s : Session ι) (publication : Publication) : Session ι → Publication → Prop where
  | waits : Step me s publication s publication
  | passes (hphase : publication.phase = .start)
    (hlookup : replayCommit publication.externals publication.data s.db.toDatabase = .ok none)
    : Step me s publication s (publication.goto .passed)
  | replays (result : PublicationResult) (hphase : publication.phase = .start)
    (hlookup : replayCommit publication.externals publication.data s.db.toDatabase = .ok (some result))
    : Step me s publication ⟨s.db, s.locks.release me⟩ (publication.goto (.finished (.ok result)))
  | fails (e : RouteVersioningError)
    (hlookup : publication.phase = .start →
      replayCommit publication.externals publication.data s.db.toDatabase = .error e)
    (hread : publication.phase = .passed →
      s.locks.available me [.draft publication.data.draftId.val] = true
        ∧ publication.readDraft s.db.toDatabase = .error e)
    : Step me s publication ⟨s.db, s.locks.release me⟩ (publication.goto (.finished (.error e)))
  | locks (draft : RouteEditing.DraftRow) (coords : List (F64 × F64))
    (hphase : publication.phase = .passed)
    (havailable : s.locks.available me [.draft publication.data.draftId.val] = true)
    (hread : publication.readDraft s.db.toDatabase = .ok (draft, coords))
    : Step me s publication ⟨s.db, s.locks.acquire me [.draft publication.data.draftId.val]⟩
      (publication.goto (.locked draft coords))
  | reads (draft : RouteEditing.DraftRow) (coords : List (F64 × F64)) (parent : RouteVersionRow)
    (hphase : publication.phase = .locked draft coords)
    (hparent : latestVersion draft.activityId s.db.toDatabase = .ok parent)
    : Step me s publication s
      (publication.goto (.writing ⟨draft, coords, parent⟩ (publication.statements ⟨draft, coords, parent⟩)))
  | writes (basis : Basis) (statement : SqlStatement RouteVersioningError)
    (remaining : List (SqlStatement RouteVersioningError))
    (hphase : publication.phase = .writing basis (statement :: remaining))
    (havailable : s.locks.available me (statement.keys s.db) = true)
    (hdone : statement.Done me s.db (s.locks.acquire me (statement.keys s.db)))
    : Step me s publication ⟨s.db, s.locks.acquire me (statement.keys s.db)⟩
      (publication.goto (.writing basis remaining))
  | commits (basis : Basis) (hphase : publication.phase = .writing basis [])
    : Step me s publication
      ⟨{ s.db with toDatabase := after (transaction (publication.write basis)) s.db.toDatabase },
        s.locks.release me⟩
      (publication.goto
        (.finished (reply (outcome (transaction (publication.write basis)) s.db.toDatabase))))

variable {publication publication' : Publication}

theorem step_cases (me : ι) (s : Session ι) (publication : Publication)
    : Step me s publication (publication.step me s).1 (publication.step me s).2 := by
  unfold step
  cases hphase : publication.phase with
  | start =>
    simp only
    cases hlookup : replayCommit publication.externals publication.data s.db.toDatabase with
    | error e => exact .fails e (fun _ => hlookup) (by simp [hphase])
    | ok found =>
      cases found with
      | none => exact .passes hphase hlookup
      | some result => exact .replays result hphase hlookup
  | passed =>
    simp only
    split
    . next havailable =>
      cases hread : publication.readDraft s.db.toDatabase with
      | error e => exact .fails e (by simp [hphase]) fun _ => ⟨havailable, hread⟩
      | ok read => exact .locks read.1 read.2 hphase havailable hread
    . exact .waits
  | locked draft coords =>
    simp only
    cases hparent : latestVersion draft.activityId s.db.toDatabase with
    | error e => exact .fails e (by simp [hphase]) (by simp [hphase])
    | ok parent => exact .reads draft coords parent hphase hparent
  | writing basis remaining =>
    cases remaining with
    | nil => exact .commits basis hphase
    | cons statement remaining =>
      simp only
      obtain hwaits | ⟨e, hrefused⟩ | ⟨havailable, hrun, hdone⟩ := statement.run_cases me s.db s.locks
      . rw [hwaits]
        exact .waits
      . rw [hrefused]
        exact .fails e (by simp [hphase]) (by simp [hphase])
      . rw [hrun]
        exact .writes basis statement remaining hphase havailable hdone
  | finished result => exact .waits

theorem Step.eq (hstep : Step me s publication s' publication')
    : publication' = publication.goto publication'.phase := by
  cases hstep with
  | waits | passes | replays | fails | locks | reads | writes | commits => rfl

theorem Step.sound (hstep : Step me s publication s' publication') (h : publication.Sound me s)
    : publication'.Sound me s' := by
  unfold Sound at h
  cases hstep with
  | waits => exact h
  | passes | replays | fails | commits => trivial
  | locks draft coords _ havailable hread =>
    refine ⟨?_, hread⟩
    exact s.locks.held_acquire me _ _ (List.mem_singleton_self _)
  | reads draft coords parent hphase hparent =>
    rw [hphase] at h
    obtain ⟨hstored, hactivity, _⟩ := latestVersion_eq_ok hparent
    exact ⟨⟨[], rfl, fun _ hmem => by cases hmem⟩, h, hstored, hactivity⟩
  | writes basis statement remaining hphase havailable hdone =>
    rw [hphase] at h
    obtain ⟨hbefore, ⟨hheld, hread⟩, hparent, hactivity⟩ := h
    exact ⟨hbefore.next hdone, ⟨Locks.acquire_of_own hheld, hread⟩, hparent, hactivity⟩

omit [DecidableEq ι] in
/--
The commit goes through, and its version is the next one after one that is there.
-/
theorem commit_of_sound {basis : Basis} (h : publication.Sound me s)
    (hphase : publication.phase = .writing basis [])
    : ∃ db' result, (transaction (publication.write basis)).run s.db.toDatabase = .ok result db'
        ∧ publication.Wrote basis s.db.toDatabase db' result
        ∧ s.db.routeVersions.clashes Imports.versionSlot (publication.version basis) = false :=
  write_of_accepted fun statement hstatement =>
    ((h.of_writing hphase).1.all statement hstatement).accepted

theorem Step.spares (hstep : Step me s publication s' publication') (h : publication.Sound me s)
    (hother : other ≠ me) : Spares other s s' := by
  cases hstep with
  | waits | passes | reads => exact .refl other s
  | replays | fails => exact spares_release hother
  | locks _ _ _ havailable => exact spares_acquire havailable hother
  | writes _ _ _ _ havailable => exact spares_acquire havailable hother
  | commits basis hphase =>
    obtain ⟨db', result, hrun, hwrote, _⟩ := commit_of_sound h hphase
    rw [after_of_run_ok hrun]
    apply spares_commit (h.of_writing hphase).1.all (fun k hk => hwrote.same hk) _ hother
    exact fun _ _ hrow => Sql.Table.find?_insert?_of_some hwrote.inserted hrow

end Publication

namespace ImportCommit

open Imports.PgImportCommitter (Committed)

inductive Step (me : ι) (s : Session ι) (importCommit : ImportCommit)
    : Session ι → ImportCommit → Prop where
  | waits : Step me s importCommit s importCommit
  | fails (e : Imports.ImportError)
    : Step me s importCommit ⟨s.db, s.locks.release me⟩ (importCommit.goto (.finished (.error e)))
  | writes (statement : SqlStatement Imports.ImportError)
    (remaining : List (SqlStatement Imports.ImportError))
    (hphase : importCommit.phase = .writing (statement :: remaining))
    (havailable : s.locks.available me (statement.keys s.db) = true)
    (hdone : statement.Done me s.db (s.locks.acquire me (statement.keys s.db)))
    : Step me s importCommit ⟨s.db, s.locks.acquire me (statement.keys s.db)⟩
      (importCommit.goto (.writing remaining))
  | commits (hphase : importCommit.phase = .writing [])
    : Step me s importCommit
      ⟨after (Imports.PgImportCommitter.commit importCommit.externals importCommit.data) s.db,
        s.locks.release me⟩
      (importCommit.goto (.finished (reply
        (outcome (Imports.PgImportCommitter.commit importCommit.externals importCommit.data) s.db))))

variable {importCommit importCommit' : ImportCommit}

theorem step_cases (me : ι) (s : Session ι) (importCommit : ImportCommit)
    : Step me s importCommit (importCommit.step me s).1 (importCommit.step me s).2 := by
  unfold step
  cases hphase : importCommit.phase with
  | writing remaining =>
    cases remaining with
    | nil => exact .commits hphase
    | cons statement remaining =>
      simp only
      obtain hwaits | ⟨e, hrefused⟩ | ⟨havailable, hrun, hdone⟩ := statement.run_cases me s.db s.locks
      . rw [hwaits]
        exact .waits
      . rw [hrefused]
        exact .fails e
      . rw [hrun]
        exact .writes statement remaining hphase havailable hdone
  | finished result => exact .waits

theorem Step.sound (hstep : Step me s importCommit s' importCommit') (h : importCommit.Sound me s)
    : importCommit'.Sound me s' := by
  unfold ImportCommit.Sound at h
  cases hstep with
  | waits => exact h
  | fails | commits => trivial
  | writes statement remaining hphase havailable hdone =>
    rw [hphase] at h
    exact h.next hdone

omit [DecidableEq ι] in
/--
The commit goes through.
-/
theorem commit_of_sound (h : importCommit.Sound me s) (hphase : importCommit.phase = .writing [])
    : ∃ db', (Imports.PgImportCommitter.commit importCommit.externals importCommit.data).run s.db
          = .ok importCommit.data.activityId db'
        ∧ Committed importCommit.externals importCommit.data s.db db' := by
  unfold ImportCommit.Sound at h
  rw [hphase] at h
  exact commit_of_accepted fun statement hstatement => (h.all statement hstatement).accepted

theorem Step.spares (hstep : Step me s importCommit s' importCommit') (h : importCommit.Sound me s)
    (hother : other ≠ me) : Spares other s s' := by
  cases hstep with
  | waits => exact .refl other s
  | fails => exact spares_release hother
  | writes _ _ _ havailable => exact spares_acquire havailable hother
  | commits hphase =>
    obtain ⟨db', hrun, hcommitted⟩ := commit_of_sound h hphase
    unfold ImportCommit.Sound at h
    rw [hphase] at h
    rw [after_of_run_ok hrun]
    apply spares_commit h.all (fun k hk => same_of_committed hcommitted hk) _ hother
    exact fun _ _ hrow => Sql.Table.find?_insert?_of_some hcommitted.routeVersions hrow

end ImportCommit

namespace Client

inductive Step (me : ι) (s : Session ι) (client : Client ι) : Session ι → Client ι → Prop where
  | rests (hfinished : client.transaction.isFinished = true) : Step me s client s client
  | breaks : Step me s client ⟨s.db, s.locks.release me⟩ { client with transaction := .broken }
  | publishes (publication publication' : Publication) (s' : Session ι) (lasts : Option Nat)
    (hlasts : client.lasts ≠ some 0) (htransaction : client.transaction = .publish publication)
    (hstep : Publication.Step me s publication s' publication')
    : Step me s client s' { client with lasts, transaction := .publish publication' }
  | imports (importCommit importCommit' : ImportCommit) (s' : Session ι) (lasts : Option Nat)
    (htransaction : client.transaction = .commit importCommit)
    (hstep : ImportCommit.Step me s importCommit s' importCommit')
    : Step me s client s' { client with lasts, transaction := .commit importCommit' }

variable {client client' : Client ι}

theorem step_cases (s : Session ι) (client : Client ι)
    : Step client.me s client (client.step s).1 (client.step s).2 := by
  unfold step
  split
  . next hfinished => exact .rests hfinished
  . next hnot =>
    split
    . exact .breaks
    . next hlasts =>
      cases htransaction : client.transaction with
      | publish publication =>
        exact .publishes publication _ _ _ hlasts htransaction (publication.step_cases client.me s)
      | commit importCommit =>
        exact .imports importCommit _ _ _ htransaction (importCommit.step_cases client.me s)
      | broken =>
        rw [htransaction] at hnot
        exact absurd rfl hnot

theorem Step.sound (hstep : Step me s client s' client') (h : client.Sound me s)
    : client'.Sound me s' := by
  obtain ⟨hme, hsound⟩ := h
  cases hstep with
  | rests => exact ⟨hme, hsound⟩
  | breaks => exact ⟨hme, trivial⟩
  | publishes publication _ _ _ _ htransaction hstep =>
    rw [htransaction] at hsound
    exact ⟨hme, hstep.sound hsound⟩
  | imports importCommit _ _ _ htransaction hstep =>
    rw [htransaction] at hsound
    exact ⟨hme, hstep.sound hsound⟩

theorem Step.spares (hstep : Step me s client s' client') (h : client.Sound me s) (hother : other ≠ me)
    : Spares other s s' := by
  have hsound := h.2
  cases hstep with
  | rests => exact .refl other s
  | breaks => exact spares_release hother
  | publishes publication _ _ _ _ htransaction hstep =>
    rw [htransaction] at hsound
    exact hstep.spares hsound hother
  | imports importCommit _ _ _ htransaction hstep =>
    rw [htransaction] at hsound
    exact hstep.spares hsound hother

theorem step_of_sound (s : Session ι) (h : client.Sound me s)
    : Step me s client (client.step s).1 (client.step s).2 := by
  obtain rfl := h.1
  exact step_cases s client

theorem sound_step (s : Session ι) (h : client.Sound me s)
    : (client.step s).2.Sound me (client.step s).1 := (step_of_sound s h).sound h

theorem spares_step (h : client.Sound me s) (hother : other ≠ me) : Spares other s (client.step s).1 :=
  (step_of_sound s h).spares h hother

end Client

/--
What a client is asked to commit.
-/
inductive Request where
  | publish (externals : Externals) (data : PublicationCommitData)
  | commit (externals : Imports.CommitExternals) (data : Imports.ImportCommitData)

def Request.begin : Request → Transaction
  | .publish externals data => .publish ⟨externals, data, .start⟩
  | .commit externals data => .commit (.start externals data)

omit [DecidableEq ι] in
-- nothing has been read or locked yet
theorem sound_begin (s : Session ι) (me : ι) (lasts : Option Nat) (request : Request)
    : Client.Sound me s ⟨me, lasts, request.begin⟩ := by
  refine ⟨rfl, ?_⟩
  cases request with
  | publish externals data => trivial
  | commit externals data => exact ⟨[], rfl, fun _ hmem => by cases hmem⟩

end Transactions
