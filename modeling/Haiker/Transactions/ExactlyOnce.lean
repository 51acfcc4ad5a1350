import Haiker.Transactions.VersionChain

/-!
This module contains when the commits of one publication, under one idempotency key, all give the version
that one of them has made. The key is looked up before the draft is locked, and not again.
-/

open Rust
open Interleaving
open RouteVersioning

namespace Transactions

/--
What each commit takes from elsewhere for itself.
-/
structure Stamp where
  now : Timestamp
  newVersionId : Uuid
  newEventId : Uuid

def stamped (base : Externals) (stamp : Stamp) : Externals := { base with
  now := stamp.now
  newVersionId := stamp.newVersionId
  newEventId := stamp.newEventId
}

namespace Client

variable {ι : Type}

def phase? (client : Client ι) : Option PublicationPhase :=
  match client.transaction with
  | .publish publication => some publication.phase
  | _ => none

-- what the caller of a publication gets
def result? (client : Client ι) : Option (Except RouteVersioningError PublicationResult) :=
  match client.phase? with
  | some (.finished result) => some result
  | _ => none

-- the next step locks the draft, after there was no event under the key
def takesDraft [DecidableEq ι] (s : Session ι) (client : Client ι) : Bool :=
  match client.transaction with
  | .publish publication =>
    match publication.phase with
    | .passed =>
      client.lasts ≠ some 0 ∧ s.locks.available client.me [.draft publication.data.draftId.val]
    | _ => false
  | _ => false

end Client

section Run

variable {ι : Type} [DecidableEq ι]

/--
After the step there is one more version than in the beginning, or none. If the client gets a result in
this step, and another one has succeeded before, it is the same.
-/
structure ExactlyOnce (initial : Imports.Database) (c : Config (Session ι) (Client ι) ι) (i : ι) : Prop
    where
  created : ∃ created, (fire Client.step c i).shared.db.routeVersions.rows
    = initial.routeVersions.rows ++ created ∧ created.length ≤ 1
  same : ∀ j published result, (c.clients j).result? = some (.ok published) →
    (c.clients i).result? = none → ((fire Client.step c i).clients i).result? = some result →
      result = .ok published

-- the draft is not locked by a client that looked the key up too early
def NoLateLock (c : Config (Session ι) (Client ι) ι) (i : ι) : Prop :=
  ∀ j published, (c.clients j).result? = some (.ok published) →
    (c.clients i).takesDraft c.shared = false

end Run

variable {base : Externals} {stamp : Stamp} {data : PublicationCommitData} {db : Imports.Database}

theorem replayCommit_stamped (base : Externals) (stamp : Stamp) (data : PublicationCommitData)
    (db : RouteVersioning.Database)
    : replayCommit (stamped base stamp) data db = replayCommit base data db := rfl

theorem replayCommit_of_wrote {basis : Basis} {db db' : RouteVersioning.Database}
    {result : PublicationResult} {phase : PublicationPhase}
    (hparse : base.parseUuid (base.uuidToString stamp.newVersionId) = .ok stamp.newVersionId)
    (hnone : existingEvent db data.idempotencyKey = none)
    (h : Publication.Wrote ⟨stamped base stamp, data, phase⟩ basis db db' result)
    : replayCommit base data db' = .ok (some result) := by
  let publication : Publication := ⟨stamped base stamp, data, phase⟩
  have hevent : existingEvent db' data.idempotencyKey
      = some (publishedEvent (stamped base stamp) data (publication.version basis)) := by
    unfold existingEvent at hnone ⊢
    rw [Sql.Table.rows_insert? h.event, List.find?_append, hnone]
    simp [publishedEvent, publication]
  have hthere : VersionThere base data db'
      (publishedEvent (stamped base stamp) data (publication.version basis)) (publication.version basis)
      (correctedStatisticsJson (stamped base stamp) basis.flatCoords) := by
    refine ⟨?_, (publication.version basis).id, hparse, ?_, rfl⟩
    . unfold fingerprintMatches
      exact beq_self_eq_true _
    . rw [Sql.Table.find?_insert? h.inserted]
      exact if_pos rfl
  rw [replayCommit_of_there hevent hthere, h.result]

theorem Publication.lockDraft_of_readDraft {publication : Publication} {db : RouteVersioning.Database}
    {draft : RouteEditing.DraftRow} {coords : List (F64 × F64)}
    (h : publication.readDraft db = .ok (draft, coords)) : lockDraft publication.data db = .ok draft := by
  unfold readDraft at h
  cases hlock : lockDraft publication.data db with
  | error e =>
    rw [hlock] at h
    cases h
  | ok row =>
    rw [hlock] at h
    simp only [bind, Except.bind] at h
    split at h
    . cases h
    . cases h
      rfl

-- the draft that is published cannot be locked again
theorem lockDraft_of_wrote {publication : Publication} {basis : Basis} {db db' : RouteVersioning.Database}
    {result : PublicationResult} (h : publication.Wrote basis db db' result)
    (hlocked : lockDraft publication.data db = .ok basis.draft)
    : ∃ e, lockDraft publication.data db' = .error e := by
  obtain ⟨hrow, _⟩ := lockDraft_eq_ok hlocked
  have hid : basis.draft.id = publication.data.draftId.val := Sql.Table.key_of_find? hrow
  cases hlock : lockDraft publication.data db' with
  | error e => exact ⟨e, rfl⟩
  | ok draft =>
    obtain ⟨hrow', _, hactive, _⟩ := lockDraft_eq_ok hlock
    rw [h.routeEditing, find?_markPublished, hrow, Option.map_some, if_pos hid, Option.some.injEq] at hrow'
    rw [← hrow'] at hactive
    revert hactive
    simp [setPublished]

section Run

variable {ι : Type} [DecidableEq ι] {stamps : ι → Stamp} {initial : Imports.Database}
  {c : Config (Session ι) (Client ι) ι} {i : ι}

/--
How far the publications have come. `published` is the result of the one that has succeeded.
-/
inductive Stage (base : Externals) (data : PublicationCommitData) (initial : Imports.Database)
    (c : Config (Session ι) (Client ι) ι) : Prop where
  -- the key cannot be used
  | refused (e : RouteVersioningError) (hdb : c.shared.db = initial)
    (hlookup : replayCommit base data initial.toDatabase = .error e)
    (hphases : ∀ j phase, (c.clients j).phase? = some phase →
      phase = .start ∨ ∃ e, phase = .finished (.error e))
  -- nobody has succeeded
  | unpublished (hdb : c.shared.db = initial)
    (hnone : existingEvent initial.toDatabase data.idempotencyKey = none)
    (hphases : ∀ j phase, (c.clients j).phase? = some phase → ∀ result, phase ≠ .finished (.ok result))
  | published (result : PublicationResult)
    (hlookup : replayCommit base data c.shared.db.toDatabase = .ok (some result))
    (hcreated : ∃ created, c.shared.db.routeVersions.rows = initial.routeVersions.rows ++ created
      ∧ created.length ≤ 1)
    (hphases : ∀ j phase, (c.clients j).phase? = some phase →
      phase = .start ∨ (phase = .passed ∧ ∃ e, lockDraft data c.shared.db.toDatabase = .error e)
        ∨ (∃ e, phase = .finished (.error e)) ∨ phase = .finished (.ok result))

structure Publishing (base : Externals) (stamps : ι → Stamp) (data : PublicationCommitData)
    (initial : Imports.Database) (c : Config (Session ι) (Client ι) ι) : Prop where
  sound : ∀ i, (c.clients i).Sound i c.shared
  request : ∀ i, (c.clients i).transaction = .broken
    ∨ ∃ phase, (c.clients i).transaction = .publish ⟨stamped base (stamps i), data, phase⟩
  stage : Stage base data initial c

-- the others have not moved
theorem phases_fire {Q : PublicationPhase → Prop}
    (hothers : ∀ j phase, j ≠ i → (c.clients j).phase? = some phase → Q phase)
    (hown : ∀ phase, ((c.clients i).step c.shared).2.phase? = some phase → Q phase)
    : ∀ j phase, ((fire Client.step c i).clients j).phase? = some phase → Q phase := by
  intro j phase hphase
  by_cases hj : j = i
  . subst hj
    rw [fire_clients_self] at hphase
    exact hown phase hphase
  . rw [fire_clients_ne _ c hj] at hphase
    exact hothers j phase hj hphase

-- the publication of a client that has not lost its connection
theorem Publishing.publication_eq (h : Publishing base stamps data initial c) {publication : Publication}
    (htransaction : (c.clients i).transaction = .publish publication)
    : publication = ⟨stamped base (stamps i), data, publication.phase⟩ := by
  obtain hbroken | ⟨phase, hpublish⟩ := h.request i
  . rw [htransaction] at hbroken
    cases hbroken
  . rw [htransaction, Transaction.publish.injEq] at hpublish
    rw [hpublish]

theorem phase?_of_publish {client : Client ι} {publication : Publication}
    (htransaction : client.transaction = .publish publication)
    : client.phase? = some publication.phase := by
  rw [Client.phase?, htransaction]

/--
Once the draft is locked by a client, no other one is at work on it.
-/
theorem Publishing.alone (h : Publishing base stamps data initial c)
    (hheld : c.shared.locks (.draft data.draftId.val) = some i) {j : ι} (hj : j ≠ i)
    {phase : PublicationPhase} (hphase : (c.clients j).phase? = some phase)
    : phase = .start ∨ phase = .passed ∨ ∃ result, phase = .finished result := by
  obtain hbroken | ⟨phase', hpublish⟩ := h.request j
  . rw [Client.phase?, hbroken] at hphase
    cases hphase
  . rw [phase?_of_publish hpublish, Option.some.injEq] at hphase
    subst hphase
    have hsound := (h.sound j).2
    rw [hpublish] at hsound
    have hnot : ¬c.shared.locks (.draft data.draftId.val) = some j := by
      rw [hheld, Option.some.injEq]
      exact fun hsame => hj hsame.symm
    cases phase' with
    | start => exact .inl rfl
    | passed => exact .inr (.inl rfl)
    | finished result => exact .inr (.inr ⟨result, rfl⟩)
    | locked draft coords => exact absurd hsound.1 hnot
    | writing basis remaining => exact absurd hsound.2.1.1 hnot

theorem Publishing.step_cases (h : Publishing base stamps data initial c) (i : ι)
    : (((c.clients i).step c.shared).1.db = c.shared.db
        ∧ ∀ phase, ((c.clients i).step c.shared).2.phase? = some phase →
          (c.clients i).phase? = some phase)
      ∨ ∃ phase publication', (c.clients i).phase? = some phase ∧ (c.clients i).lasts ≠ some 0
        ∧ Publication.Sound ⟨stamped base (stamps i), data, phase⟩ i c.shared
        ∧ Publication.Step i c.shared ⟨stamped base (stamps i), data, phase⟩
          ((c.clients i).step c.shared).1 publication'
        ∧ ((c.clients i).step c.shared).2.phase? = some publication'.phase := by
  have hstep := Client.step_of_sound c.shared (h.sound i)
  have hsound := (h.sound i).2
  generalize ((c.clients i).step c.shared).1 = s' at hstep ⊢
  generalize ((c.clients i).step c.shared).2 = client' at hstep ⊢
  cases hstep with
  | rests => exact .inl ⟨rfl, fun _ hphase => hphase⟩
  | breaks => exact .inl ⟨rfl, fun _ hphase => by cases hphase⟩
  | publishes publication publication' _ _ hlasts htransaction hstep =>
    rw [htransaction] at hsound
    refine .inr ⟨publication.phase, publication', phase?_of_publish htransaction, ?_⟩
    rw [← h.publication_eq htransaction]
    exact ⟨hlasts, hsound, hstep, rfl⟩
  | imports importCommit _ _ _ htransaction =>
    obtain hbroken | ⟨phase, hpublish⟩ := h.request i
    . rw [htransaction] at hbroken
      cases hbroken
    . rw [htransaction] at hpublish
      cases hpublish

theorem Publishing.fire_refused (h : Publishing base stamps data initial c) {e : RouteVersioningError}
    (hdb : c.shared.db = initial) (hlookup : replayCommit base data initial.toDatabase = .error e)
    (hphases : ∀ j phase, (c.clients j).phase? = some phase →
      phase = .start ∨ ∃ e, phase = .finished (.error e)) (i : ι)
    : Stage base data initial (fire Client.step c i) := by
  obtain ⟨hsame, hphase⟩ | ⟨phase, publication', hphase, _, hsound, hstep, hnext⟩ :=
    h.step_cases i
  . refine .refused e (hsame.trans hdb) hlookup ?_
    exact phases_fire (fun j phase _ => hphases j phase) fun phase hown => hphases i phase (hphase phase hown)
  . have hbefore := hphases i phase hphase
    have hsame : ((c.clients i).step c.shared).1.db = initial
        ∧ (publication'.phase = .start ∨ ∃ e, publication'.phase = .finished (.error e)) := by
      generalize ((c.clients i).step c.shared).1 = s' at hstep ⊢
      cases hstep with
      | waits => exact ⟨hdb, hbefore⟩
      | fails e => exact ⟨hdb, .inr ⟨e, rfl⟩⟩
      | passes hstart hpassed | replays _ hstart hpassed =>
        rw [hdb, replayCommit_stamped, hlookup] at hpassed
        cases hpassed
      | locks _ _ hpassed | reads _ _ _ hpassed | writes _ _ _ hpassed | commits _ hpassed =>
        simp only at hpassed
        subst hpassed
        simp at hbefore
    refine .refused e hsame.1 hlookup (phases_fire (fun j phase _ => hphases j phase) ?_)
    intro phase' hphase'
    rw [hnext, Option.some.injEq] at hphase'
    rw [← hphase']
    exact hsame.2

/--
The commit of one client settles what the others get.
-/
theorem Publishing.stage_of_wrote (h : Publishing base stamps data initial c)
    (hparse : base.parseUuid (base.uuidToString (stamps i).newVersionId) = .ok (stamps i).newVersionId)
    (hnone : existingEvent initial.toDatabase data.idempotencyKey = none)
    (hphases : ∀ j phase, (c.clients j).phase? = some phase → ∀ result, phase ≠ .finished (.ok result))
    (hheld : c.shared.locks (.draft data.draftId.val) = some i) {phase : PublicationPhase} {basis : Basis}
    {db' : RouteVersioning.Database} {result : PublicationResult}
    (hlocked : lockDraft data initial.toDatabase = .ok basis.draft)
    (hwrote : Publication.Wrote ⟨stamped base (stamps i), data, phase⟩ basis initial.toDatabase db' result)
    (hfired : (fire Client.step c i).shared.db.toDatabase = db')
    (hnext : ∀ phase, ((c.clients i).step c.shared).2.phase? = some phase →
      phase = .finished (.ok result))
    : Stage base data initial (fire Client.step c i) := by
  have hcreated : (fire Client.step c i).shared.db.routeVersions.rows = initial.routeVersions.rows
      ++ [Publication.version ⟨stamped base (stamps i), data, phase⟩ basis] := by
    rw [hfired]
    exact Sql.Table.rows_insert? hwrote.inserted
  refine .published result ?_ ⟨_, hcreated, Nat.le_refl 1⟩ (phases_fire ?_ ?_)
  . rw [hfired]
    exact replayCommit_of_wrote hparse hnone hwrote
  . intro j phase' hj hphase'
    obtain hstart | hpassed | ⟨result', hfinished⟩ := h.alone hheld hj hphase'
    . exact .inl hstart
    . rw [hfired]
      exact .inr (.inl ⟨hpassed, lockDraft_of_wrote hwrote hlocked⟩)
    . cases result' with
      | error e => exact .inr (.inr (.inl ⟨e, hfinished⟩))
      | ok published => exact absurd hfinished (hphases j phase' hphase' published)
  . exact fun phase' hphase' => .inr (.inr (.inr (hnext phase' hphase')))

theorem Publishing.fire_unpublished (h : Publishing base stamps data initial c)
    (hparse : base.parseUuid (base.uuidToString (stamps i).newVersionId) = .ok (stamps i).newVersionId)
    (hdb : c.shared.db = initial)
    (hnone : existingEvent initial.toDatabase data.idempotencyKey = none)
    (hphases : ∀ j phase, (c.clients j).phase? = some phase → ∀ result, phase ≠ .finished (.ok result))
    : Stage base data initial (fire Client.step c i) := by
  have hpasses : replayCommit base data initial.toDatabase = .ok none := replayCommit_of_no_event hnone
  obtain ⟨hsame, hphase⟩ | ⟨phase, publication', hphase, _, hsound, hstep, hnext⟩ :=
    h.step_cases i
  . refine .unpublished (hsame.trans hdb) hnone ?_
    exact phases_fire (fun j phase _ => hphases j phase) fun phase hown => hphases i phase (hphase phase hown)
  . have hquiet : ((c.clients i).step c.shared).1.db = c.shared.db →
        (∀ result, publication'.phase ≠ .finished (.ok result)) →
        Stage base data initial (fire Client.step c i) := by
      intro hsame hnot
      refine .unpublished (hsame.trans hdb) hnone (phases_fire (fun j phase _ => hphases j phase) ?_)
      intro phase' hphase'
      rw [hnext, Option.some.injEq] at hphase'
      rw [← hphase']
      exact hnot
    have hfired : (fire Client.step c i).shared = ((c.clients i).step c.shared).1 := rfl
    generalize ((c.clients i).step c.shared).1 = s' at hstep hquiet hfired
    cases hstep with
    | waits => exact hquiet rfl (hphases i phase hphase)
    | passes | fails | locks | reads | writes => exact hquiet rfl fun _ hsame => by cases hsame
    | replays result hstart hlookup =>
      rw [hdb, replayCommit_stamped, hpasses] at hlookup
      cases hlookup
    | commits basis hwriting =>
      obtain ⟨db', result, hrun, hwrote, _⟩ := Publication.commit_of_sound hsound hwriting
      obtain ⟨_, ⟨hheld, hread⟩, _⟩ := hsound.of_writing hwriting
      rw [after_of_run_ok hrun] at hfired
      rw [outcome_of_run_ok hrun] at hnext
      rw [hdb] at hwrote hread
      apply h.stage_of_wrote hparse hnone hphases hheld (Publication.lockDraft_of_readDraft hread) hwrote
      . rw [hfired]
      . intro phase' hphase'
        rw [hnext, Option.some.injEq] at hphase'
        exact hphase'.symm

theorem Publishing.fire_published (h : Publishing base stamps data initial c) {result : PublicationResult}
    (hlookup : replayCommit base data c.shared.db.toDatabase = .ok (some result))
    (hcreated : ∃ created, c.shared.db.routeVersions.rows = initial.routeVersions.rows ++ created
      ∧ created.length ≤ 1)
    (hphases : ∀ j phase, (c.clients j).phase? = some phase →
      phase = .start ∨ (phase = .passed ∧ ∃ e, lockDraft data c.shared.db.toDatabase = .error e)
        ∨ (∃ e, phase = .finished (.error e)) ∨ phase = .finished (.ok result)) (i : ι)
    : (fire Client.step c i).shared.db = c.shared.db ∧ Stage base data initial (fire Client.step c i) := by
  have hstays : ((c.clients i).step c.shared).1.db = c.shared.db →
      (∀ phase, ((c.clients i).step c.shared).2.phase? = some phase →
        phase = .start ∨ (phase = .passed ∧ ∃ e, lockDraft data c.shared.db.toDatabase = .error e)
          ∨ (∃ e, phase = .finished (.error e)) ∨ phase = .finished (.ok result)) →
      (fire Client.step c i).shared.db = c.shared.db ∧ Stage base data initial (fire Client.step c i) := by
    intro hsame hown
    have hfired : (fire Client.step c i).shared.db = c.shared.db := hsame
    rw [← hfired] at hlookup hcreated hown hphases
    exact ⟨hfired, .published result hlookup hcreated
      (phases_fire (fun j phase _ => hphases j phase) hown)⟩
  obtain ⟨hsame, hphase⟩ | ⟨phase, publication', hphase, _, hsound, hstep, hnext⟩ :=
    h.step_cases i
  . exact hstays hsame fun phase hown => hphases i phase (hphase phase hown)
  . have hbefore := hphases i phase hphase
    rw [hnext] at hstays
    simp only [Option.some.injEq, forall_eq'] at hstays
    generalize ((c.clients i).step c.shared).1 = s' at hstep hstays
    cases hstep with
    | waits => exact hstays rfl hbefore
    | fails e => exact hstays rfl (.inr (.inr (.inl ⟨e, rfl⟩)))
    | replays result' _ hlookup' =>
      rw [replayCommit_stamped, hlookup] at hlookup'
      cases hlookup'
      exact hstays rfl (.inr (.inr (.inr rfl)))
    | passes _ hlookup' =>
      rw [replayCommit_stamped, hlookup] at hlookup'
      cases hlookup'
    | locks draft coords hpassed _ hread =>
      simp only at hpassed
      subst hpassed
      have hlocked := Publication.lockDraft_of_readDraft hread
      simp only at hlocked
      simp [hlocked] at hbefore
    | reads _ _ _ hpassed | writes _ _ _ hpassed | commits _ hpassed =>
      simp only at hpassed
      subst hpassed
      simp at hbefore

theorem Publishing.fire (h : Publishing base stamps data initial c)
    (hparse : base.parseUuid (base.uuidToString (stamps i).newVersionId) = .ok (stamps i).newVersionId)
    : Publishing base stamps data initial (fire Client.step c i) where
  sound := by
    intro j
    by_cases hj : j = i
    . subst hj
      rw [fire_clients_self]
      exact Client.sound_step c.shared (h.sound j)
    . rw [fire_clients_ne _ c hj]
      exact (h.sound j).spared (Client.spares_step (h.sound i) hj)
  request := by
    intro j
    by_cases hj : j = i
    . subst hj
      rw [fire_clients_self]
      have hstep := Client.step_of_sound c.shared (h.sound j)
      generalize ((c.clients j).step c.shared).1 = s' at hstep
      generalize ((c.clients j).step c.shared).2 = client' at hstep
      cases hstep with
      | rests => exact h.request j
      | breaks => exact .inl rfl
      | publishes publication publication' _ _ _ htransaction hstep =>
        rw [hstep.eq, h.publication_eq htransaction]
        exact .inr ⟨_, rfl⟩
      | imports _ _ _ _ htransaction =>
        obtain hbroken | ⟨_, hpublish⟩ := h.request j
        . rw [htransaction] at hbroken
          cases hbroken
        . rw [htransaction] at hpublish
          cases hpublish
    . rw [fire_clients_ne _ c hj]
      exact h.request j
  stage := by
    cases h.stage with
    | refused e hdb hlookup hphases => exact h.fire_refused hdb hlookup hphases i
    | unpublished hdb hnone hphases => exact h.fire_unpublished hparse hdb hnone hphases
    | published result hlookup hcreated hphases =>
      exact (h.fire_published hlookup hcreated hphases i).2

theorem result?_eq_some_iff {client : Client ι} {result : Except RouteVersioningError PublicationResult}
    : client.result? = some result ↔ client.phase? = some (.finished result) := by
  unfold Client.result?
  cases hphase : client.phase? with
  | none => simp
  | some phase =>
    cases phase with
    | finished other => simp
    | start | passed | locked | writing => simp

theorem Publishing.takesDraft_iff (h : Publishing base stamps data initial c)
    : (c.clients i).takesDraft c.shared = true
        ↔ (c.clients i).phase? = some .passed ∧ (c.clients i).lasts ≠ some 0
          ∧ c.shared.locks.available i [.draft data.draftId.val] = true := by
  have hme := (h.sound i).1
  obtain hbroken | ⟨phase, hpublish⟩ := h.request i
  . simp [Client.takesDraft, Client.phase?, hbroken]
  . cases phase with
    | passed => simp [Client.takesDraft, Client.phase?, hpublish, hme]
    | start | locked | writing | finished => simp [Client.takesDraft, Client.phase?, hpublish]

theorem Publishing.late (h : Publishing base stamps data initial c) {e : RouteVersioningError}
    (hlocked : lockDraft data c.shared.db.toDatabase = .error e)
    (htakes : (c.clients i).takesDraft c.shared = true)
    : (c.clients i).result? = none
        ∧ ((c.clients i).step c.shared).2.result? = some (.error e) := by
  obtain ⟨hpassed, hlasts, havailable⟩ := h.takesDraft_iff.mp htakes
  have hme := (h.sound i).1
  refine ⟨by rw [Client.result?, hpassed], ?_⟩
  obtain hbroken | ⟨phase, hpublish⟩ := h.request i
  . rw [Client.phase?, hbroken] at hpassed
    cases hpassed
  . rw [phase?_of_publish hpublish, Option.some.injEq] at hpassed
    simp only at hpassed
    subst hpassed
    have hread : Publication.readDraft ⟨stamped base (stamps i), data, .passed⟩ c.shared.db.toDatabase
        = .error e := by
      unfold Publication.readDraft
      rw [hlocked]
      rfl
    unfold Client.step
    rw [hpublish, hme]
    simp only [Transaction.isFinished, hlasts, Transaction.step, Publication.step, havailable, hread]
    rfl

theorem Stage.created (h : Stage base data initial c)
    : ∃ created, c.shared.db.routeVersions.rows = initial.routeVersions.rows ++ created
        ∧ created.length ≤ 1 := by
  cases h with
  | refused _ hdb | unpublished hdb =>
    rw [hdb]
    exact ⟨[], (List.append_nil _).symm, Nat.zero_le 1⟩
  | published _ _ hcreated => exact hcreated

/--
Where somebody has succeeded, the key gives that result, and the draft cannot be locked again.
-/
theorem Stage.of_success (h : Stage base data initial c) {j : ι} {published : PublicationResult}
    (hj : (c.clients j).result? = some (.ok published))
    : replayCommit base data c.shared.db.toDatabase = .ok (some published)
        ∧ ∀ i phase, (c.clients i).phase? = some phase →
          phase = .start ∨ (phase = .passed ∧ ∃ e, lockDraft data c.shared.db.toDatabase = .error e)
            ∨ (∃ e, phase = .finished (.error e)) ∨ phase = .finished (.ok published) := by
  rw [result?_eq_some_iff] at hj
  cases h with
  | refused _ _ _ hphases =>
    have hphase := hphases j _ hj
    simp at hphase
  | unpublished _ _ hphases => exact absurd rfl (hphases j _ hj published)
  | published result hlookup _ hphases =>
    have hphase := hphases j _ hj
    simp only [reduceCtorEq, false_and, PublicationPhase.finished.injEq, exists_false, Except.ok.injEq,
      false_or] at hphase
    subst hphase
    exact ⟨hlookup, hphases⟩

theorem exactlyOnce_iff (h : Publishing base stamps data initial c)
    (hparse : base.parseUuid (base.uuidToString (stamps i).newVersionId) = .ok (stamps i).newVersionId)
    : ExactlyOnce initial c i ↔ NoLateLock c i := by
  constructor
  . intro honce j published hj
    by_contra htakes
    rw [Bool.not_eq_false] at htakes
    have hpassed := (h.takesDraft_iff.mp htakes).1
    have hphase := (h.stage.of_success hj).2 i _ hpassed
    simp only [reduceCtorEq, true_and, exists_false, or_false, false_or] at hphase
    obtain ⟨e, hlocked⟩ := hphase
    obtain ⟨hbefore, hafter⟩ := h.late hlocked htakes
    rw [← fire_clients_self Client.step c i] at hafter
    cases honce.same j published _ hj hbefore hafter
  . intro hnot
    refine ⟨(h.fire hparse).stage.created, ?_⟩
    intro j published result hj hbefore hafter
    obtain ⟨hlookup, hphases⟩ := h.stage.of_success hj
    rw [fire_clients_self, result?_eq_some_iff] at hafter
    obtain ⟨_, hphase⟩ | ⟨phase, publication', hphase, hlasts, _, hstep, hnext⟩ := h.step_cases i
    . rw [result?_eq_some_iff.mpr (hphase _ hafter)] at hbefore
      cases hbefore
    . rw [hnext, Option.some.injEq] at hafter
      have hunfinished : ∀ other, phase ≠ .finished other := by
        rintro other rfl
        rw [result?_eq_some_iff.mpr hphase] at hbefore
        cases hbefore
      have hwhere := hphases i phase hphase
      generalize ((c.clients i).step c.shared).1 = s' at hstep
      cases hstep with
      | waits => exact absurd hafter (hunfinished result)
      | passes | locks | reads | writes => cases hafter
      | replays other _ hlookup' =>
        rw [replayCommit_stamped, hlookup] at hlookup'
        cases hlookup'
        cases hafter
        rfl
      | fails e hlookup' hread =>
        exfalso
        obtain hstart | ⟨hpassed, _⟩ | ⟨e, hfinished⟩ | hfinished := hwhere
        . have hsame := hlookup' hstart
          rw [replayCommit_stamped, hlookup] at hsame
          cases hsame
        . have htakes := h.takesDraft_iff.mpr
            ⟨hphase.trans (congrArg some hpassed), hlasts, (hread hpassed).1⟩
          rw [hnot j published hj] at htakes
          cases htakes
        . exact hunfinished _ hfinished
        . exact hunfinished _ hfinished
      | commits _ hwriting =>
        simp only at hwriting
        subst hwriting
        simp at hwhere

variable (base : Externals) (stamps : ι → Stamp) (data : PublicationCommitData)
  (initial : Imports.Database) (lasts : ι → Option Nat)

def publications : Config (Session ι) (Client ι) ι :=
  ⟨⟨initial, .free⟩, fun i => ⟨i, lasts i, (Request.publish (stamped base (stamps i)) data).begin⟩⟩

theorem publishing_publications
    (hthere : existingEvent initial.toDatabase data.idempotencyKey ≠ none →
      replayCommit base data initial.toDatabase ≠ .ok none)
    : Publishing base stamps data initial (publications base stamps data initial lasts) where
  sound i := sound_begin _ i (lasts i) (.publish (stamped base (stamps i)) data)
  request i := .inr ⟨.start, rfl⟩
  stage := by
    have hphases : ∀ j phase, ((publications base stamps data initial lasts).clients j).phase? = some phase →
        phase = .start := fun _ _ hphase => (Option.some.inj hphase).symm
    cases hlookup : replayCommit base data initial.toDatabase with
    | error e => exact .refused e rfl hlookup fun j phase hphase => .inl (hphases j phase hphase)
    | ok found =>
      cases found with
      | some result =>
        exact .published result hlookup ⟨[], (List.append_nil _).symm, Nat.zero_le 1⟩
          fun j phase hphase => .inl (hphases j phase hphase)
      | none =>
        refine .unpublished rfl ?_ ?_
        . by_contra hevent
          exact hthere hevent hlookup
        . intro j phase hphase result hfinished
          rw [hphases j phase hphase] at hfinished
          cases hfinished

/--
The commits of one publication all give the version of the one that succeeds first, exactly if none of
them locks the draft afterwards.
-/
theorem exactly_once_iff_no_late_lock
    (hparse : ∀ i, base.parseUuid (base.uuidToString (stamps i).newVersionId)
      = .ok (stamps i).newVersionId)
    (hthere : existingEvent initial.toDatabase data.idempotencyKey ≠ none →
      replayCommit base data initial.toDatabase ≠ .ok none)
    (schedule : List ι)
    : Along Client.step (ExactlyOnce initial) (publications base stamps data initial lasts) schedule
        ↔ Along Client.step NoLateLock (publications base stamps data initial lasts) schedule := by
  have hiff : ∀ (c : Config (Session ι) (Client ι) ι) i, Publishing base stamps data initial c →
      (ExactlyOnce initial c i ↔ NoLateLock c i) := fun _ i h => exactlyOnce_iff h (hparse i)
  have hfire : ∀ (c : Config (Session ι) (Client ι) ι) i, Publishing base stamps data initial c →
      ExactlyOnce initial c i → Publishing base stamps data initial (fire Client.step c i) :=
    fun _ i h _ => h.fire (hparse i)
  exact along_congr_of_reached Client.step hiff hfire
    (publishing_publications base stamps data initial lasts hthere) schedule

end Run

-- two commits of the publication of one draft
def sampleStamps : Bool → Stamp
  | false => ⟨2000, ⟨20⟩, ⟨21⟩⟩
  | true => ⟨2000, ⟨22⟩, ⟨23⟩⟩

def sampleData : PublicationCommitData where
  draftId := ⟨⟨10⟩⟩
  expectedRevision := 0
  actorId := ⟨⟨3⟩⟩
  idempotencyKey := ⟨30⟩
  editSummary := none

def samplePublications : Config (Session Bool) (Client Bool) Bool :=
  publications (sampleExternals 20) sampleStamps sampleData sampleDatabase fun _ => none

-- both look the key up, and the first one gets to the end
def sampleLookups : List Bool := [false, true] ++ List.replicate 7 false

theorem exactly_once_iff_no_late_lock_samplePublications
    : Along Client.step (ExactlyOnce sampleDatabase) samplePublications (sampleLookups ++ [true])
        ↔ Along Client.step NoLateLock samplePublications (sampleLookups ++ [true]) := by
  apply exactly_once_iff_no_late_lock
  . intro i
    cases i with
    | false => decide +kernel
    | true => decide +kernel
  . intro hevent
    exact absurd rfl hevent

-- what each of the two has got
def sampleResult (schedule : List Bool) (i : Bool) : Option (Except RouteVersioningError Uuid) :=
  ((run Client.step samplePublications schedule).clients i).result?.map fun result =>
    result.map (·.routeVersionId.val)

/--
The one that has looked the key up before the other one commits finds the draft published.
-/
theorem retry_sees_draft_not_active
    : sampleResult sampleLookups false = some (.ok ⟨20⟩)
        ∧ sampleResult (sampleLookups ++ [true]) true = some (.error .draftNotActive)
        ∧ ¬Along Client.step (ExactlyOnce sampleDatabase) samplePublications
          (sampleLookups ++ [true]) := by
  have hfirst : sampleResult sampleLookups false = some (.ok ⟨20⟩) := by
    decide
  have hbefore : sampleResult sampleLookups true = none := by
    decide
  have hafter : sampleResult (sampleLookups ++ [true]) true = some (.error .draftNotActive) := by
    decide
  refine ⟨hfirst, hafter, ?_⟩
  intro h
  obtain ⟨published, hpublished, hok⟩ := Option.map_eq_some_iff.mp hfirst
  rw [sampleResult, run_append] at hafter
  obtain ⟨result, hresult, herror⟩ := Option.map_eq_some_iff.mp hafter
  cases published with
  | error e => cases hok
  | ok published =>
    have hsame := (Along.last Client.step h).same false published result hpublished
      (Option.map_eq_none_iff.mp hbefore) hresult
    rw [hsame] at herror
    cases herror

end Transactions
