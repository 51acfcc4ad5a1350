import Haiker.Identity.LoginChain

/-!
This module contains the accounts of the users: who gets which id, and what is kept of what logins have told.
-/

open Rust
open Journal

namespace Identity

/--
What a login may tell of a user, apart from who it is.
-/
inductive ProfileField where
  | email
  | displayName
  deriving DecidableEq

namespace ProfileField

def of : ProfileField → UserRow → Option String
  | .email, row => row.email
  | .displayName, row => row.displayName

def told (email name : Option String) : ProfileField → Option String
  | .email => email
  | .displayName => name

end ProfileField

namespace PgUserRepository

variable {externals : AuthExternals} {externalId : String} {email name : Option String} {users : UserTable}

/--
The account that an upsert leaves under its external id.
-/
structure Upserted (externalId : String) (email name : Option String) (users : UserTable) (row : UserRow) : Prop where
  profile : ∀ field : ProfileField,
    field.of row = (field.told email name).or ((users.find? externalId).bind field.of)
  known : ∀ old, users.find? externalId = some old → row.id = old.id
  new : users.find? externalId = none → ∀ other ∈ users.rows, other.id ≠ row.id

theorem upsert_of_find?_some {row : UserRow} (h : users.find? externalId = some row)
    : ∃ row' users', upsert externals externalId email name users = (.ok row'.id, users')
        ∧ Upserted externalId email name users row'
        ∧ ∀ key, users'.find? key = if key = externalId then some row' else users.find? key := by
  have hexternalId := Sql.Table.key_of_find? h
  unfold upsert
  rw [h]
  refine ⟨{ row with
    email := email.or row.email
    displayName := name.or row.displayName
    updatedAt := externals.dbNow }, _, rfl, ⟨?_, ?_, ?_⟩, ?_⟩
  . rintro (_ | _)
    . rw [h]
      rfl
    . rw [h]
      rfl
  . intro old hold
    rw [h] at hold
    cases hold
    rfl
  . intro hnone
    rw [h] at hnone
    cases hnone
  . intro key
    rw [Sql.Table.find?_updateWhere]
    split
    . next hkey =>
      rw [hkey, h]
      simp [hexternalId]
    . next hkey =>
      cases hother : users.find? key with
      | none => rfl
      | some other =>
        have hother : other.externalId ≠ externalId := by
          rw [Sql.Table.key_of_find? hother]
          exact hkey
        simp [hother]

theorem upsert_of_find?_none (h : users.find? externalId = none)
    : upsert externals externalId email name users = (.error externals.violation, users)
        ∨ ∃ row users', upsert externals externalId email name users = (.ok row.id, users')
          ∧ Upserted externalId email name users row
          ∧ ∀ key, users'.find? key = if key = externalId then some row else users.find? key := by
  let row : UserRow := ⟨externals.newUserId, externalId, email, name, externals.dbNow, externals.dbNow⟩
  unfold upsert
  rw [h]
  dsimp only
  cases hclashes : users.clashes (fun row => some row.id) row with
  | true =>
    rw [if_pos rfl]
    exact .inl rfl
  | false =>
    rw [if_neg Bool.false_ne_true]
    cases hinsert : users.insert? row with
    | none => exact .inl rfl
    | some users' =>
      refine .inr ⟨row, users', rfl, ⟨?_, ?_, ?_⟩, fun key => Sql.Table.find?_insert? hinsert key⟩
      . rintro (_ | _)
        . rw [h]
          exact (Option.or_none).symm
        . rw [h]
          exact (Option.or_none).symm
      . intro old hold
        rw [h] at hold
        cases hold
      . intro _ other hother hid
        have hsame := Sql.Table.clashes_eq_false_iff.mp hclashes other.externalId other other.id
          (Sql.Table.find?_of_mem hother) (congrArg some hid.symm) rfl
        have hfound := Sql.Table.find?_of_mem hother
        rw [hsame, h] at hfound
        cases hfound

/--
An upsert fails and changes nothing, or changes one account.
-/
theorem findOrCreateByExternalId_cases (externals : AuthExternals) (externalId : String) (email name : Option String)
    (users : UserTable)
    : (∃ e, findOrCreateByExternalId externals externalId email name users = (.error e, users))
        ∨ ∃ row users', findOrCreateByExternalId externals externalId email name users = (.ok ⟨row.id⟩, users')
          ∧ Upserted externalId email name users row
          ∧ ∀ key, users'.find? key = if key = externalId then some row else users.find? key := by
  unfold findOrCreateByExternalId
  cases externals.outage with
  | some message => exact .inl ⟨_, rfl⟩
  | none =>
    cases hfind : users.find? externalId with
    | some row =>
      obtain ⟨row', users', hupsert, hupserted, hrest⟩ := upsert_of_find?_some hfind
      exact .inr ⟨row', users', by rw [hupsert], hupserted, hrest⟩
    | none =>
      rcases upsert_of_find?_none hfind with hfailed | ⟨row, users', hupsert, hupserted, hrest⟩
      . exact .inl ⟨_, by rw [hfailed]⟩
      . exact .inr ⟨row, users', by rw [hupsert], hupserted, hrest⟩

/--
There is an account of the external id, with the given id.
-/
def Registered (externalId : String) (userId : Uuid) (users : UserTable) : Prop :=
  ∃ row, users.find? externalId = some row ∧ row.id = userId

/--
There is an account of the external id whose profile holds the given text.
-/
def Shows (field : ProfileField) (externalId text : String) (users : UserTable) : Prop :=
  (users.find? externalId).bind field.of = some text

-- the primary key
def DistinctIds (users : UserTable) : Prop := users.Indexed fun row => some row.id

end PgUserRepository

section History

variable {ι : Type}

/--
A login of the user with the external id.
-/
def LogsIn (externalId : String) (userId : Uuid) (entry : AuthEntry ι) : Prop :=
  ∃ email name, entry.event = ⟨.findOrCreateByExternalId externalId email name, .ok ⟨userId⟩⟩

/--
A login that tells the text.
-/
def Tells (field : ProfileField) (externalId text : String) (entry : AuthEntry ι) : Prop :=
  ∃ email name userId, entry.event = ⟨.findOrCreateByExternalId externalId email name, .ok userId⟩
    ∧ field.told email name = some text

open PgUserRepository

variable {hashToken : String → String} {externalId : String} {userId : Uuid} {journal : List (AuthEntry ι)}

theorem tells_found {client : ι} {externals : AuthExternals} {key : String} {email name : Option String}
    {found : UserId} {field : ProfileField} {text : String}
    : Tells field externalId text
          (⟨client, externals, .findOrCreateByExternalId key email name, .ok found⟩ : AuthEntry ι)
        ↔ key = externalId ∧ field.told email name = some text := by
  constructor
  . rintro ⟨email, name, userId, hevent, htold⟩
    cases hevent
    exact ⟨rfl, htold⟩
  . rintro ⟨rfl, htold⟩
    exact ⟨email, name, found, rfl, htold⟩

theorem logsIn_found {client : ι} {externals : AuthExternals} {key : String} {email name : Option String}
    {found : Uuid}
    : LogsIn externalId userId
          (⟨client, externals, .findOrCreateByExternalId key email name, .ok ⟨found⟩⟩ : AuthEntry ι)
        ↔ key = externalId ∧ found = userId := by
  constructor
  . rintro ⟨email, name, hevent⟩
    cases hevent
    exact ⟨rfl, rfl⟩
  . rintro ⟨rfl, rfl⟩
    exact ⟨email, name, rfl⟩

theorem distinctIds_of_upserted {users users' : UserTable} {row : UserRow} {email name : Option String}
    (h : DistinctIds users) (hupserted : Upserted externalId email name users row)
    (hrest : ∀ key, users'.find? key = if key = externalId then some row else users.find? key)
    : DistinctIds users' := by
  -- the account that has been changed against another one
  have hother : ∀ key other, users.find? key = some other → row.id = other.id → externalId = key := by
    intro key other hfind hid
    cases hold : users.find? externalId with
    | some old =>
      have hsame : other.id = old.id := by rw [← hid, hupserted.known old hold]
      exact h externalId key old other old.id hold hfind rfl (congrArg some hsame)
    | none => exact absurd hid.symm (hupserted.new hold other (Sql.Table.mem_of_find? hfind))
  intro key key' first second id hfirst hsecond hid hid'
  rw [hrest] at hfirst hsecond
  split at hfirst
  . next hkey =>
    cases hfirst
    split at hsecond
    . next hkey' => rw [hkey, hkey']
    . rw [hkey]
      exact hother key' second hsecond (Option.some.inj (hid.trans hid'.symm))
  . split at hsecond
    . next hkey' =>
      cases hsecond
      rw [hkey']
      exact (hother key first hfirst (Option.some.inj (hid'.trans hid.symm))).symm
    . exact h key key' first second id hfirst hsecond hid hid'

theorem distinctIds_replay (h : Answered (AuthCommand.answer hashToken) .new journal)
    : DistinctIds (replay (AuthCommand.answer hashToken) .new journal).users := by
  apply h.induction (motive := fun journal => DistinctIds (replay (AuthCommand.answer hashToken) .new journal).users)
  . exact Sql.Table.indexed_empty _
  . intro journal client externals command _ ih
    rw [replay_concat]
    cases command with
    | findOrCreateByExternalId key email name =>
      simp only [AuthCommand.answer, AuthState.onUsers]
      rcases findOrCreateByExternalId_cases externals key email name
          (replay (AuthCommand.answer hashToken) .new journal).users with
        ⟨e, hfailed⟩ | ⟨row, users', hfound, hupserted, hrest⟩
      . rw [hfailed]
        exact ih
      . rw [hfound]
        exact distinctIds_of_upserted ih hupserted hrest
    | storeState | consumeState | authorizationUrl | exchangeCode | createSession | validateSession | revokeSession
    | revokeAllUserSessions | cleanupExpired | restart => exact ih

theorem registered_iff (h : Answered (AuthCommand.answer hashToken) .new journal)
    : Registered externalId userId (replay (AuthCommand.answer hashToken) .new journal).users
        ↔ ∃ entry ∈ journal, LogsIn externalId userId entry := by
  rw [← since_false_iff]
  apply h.since_iff fun shared => Registered externalId userId shared.users
  . rintro ⟨row, hrow, _⟩
    cases hrow
  . intro shared client externals command
    cases command with
    | findOrCreateByExternalId key email name =>
      simp only [AuthCommand.answer, AuthState.onUsers]
      rcases findOrCreateByExternalId_cases externals key email name shared.users with
        ⟨e, hfailed⟩ | ⟨row, users', hfound, hupserted, hrest⟩
      . simp [hfailed, LogsIn, Entry.event]
      . simp only [hfound, Registered, hrest, logsIn_found]
        by_cases hkey : externalId = key
        . subst hkey
          simp only [if_true, Option.some.injEq, exists_eq_left', true_and, not_false_iff, and_true]
          constructor
          . exact .inl
          . rintro (hid | ⟨old, hold, hid⟩)
            . exact hid
            . rw [hupserted.known old hold]
              exact hid
        . simp [hkey, Ne.symm hkey]
    | storeState | consumeState | authorizationUrl | exchangeCode | createSession | validateSession | revokeSession
    | revokeAllUserSessions | cleanupExpired | restart =>
      simp [AuthCommand.answer, AuthState.onStore, AuthState.onSessions, LogsIn, Entry.event]

theorem shows_iff {field : ProfileField} {text : String} (h : Answered (AuthCommand.answer hashToken) .new journal)
    : Shows field externalId text (replay (AuthCommand.answer hashToken) .new journal).users
        ↔ Since (Tells field externalId text) (fun entry => ∃ text', Tells field externalId text' entry) journal := by
  apply h.since_iff fun shared => Shows field externalId text shared.users
  . intro hshows
    cases hshows
  . intro shared client externals command
    cases command with
    | findOrCreateByExternalId key email name =>
      simp only [AuthCommand.answer, AuthState.onUsers]
      rcases findOrCreateByExternalId_cases externals key email name shared.users with
        ⟨e, hfailed⟩ | ⟨row, users', hfound, hupserted, hrest⟩
      . simp [hfailed, Tells, Entry.event]
      . simp only [hfound, Shows, hrest, tells_found]
        by_cases hkey : externalId = key
        . subst hkey
          have hprofile := hupserted.profile field
          simp [hprofile, Option.or_eq_some_iff, Option.eq_none_iff_forall_ne_some, and_comm]
        . simp [hkey, Ne.symm hkey]
    | storeState | consumeState | authorizationUrl | exchangeCode | createSession | validateSession | revokeSession
    | revokeAllUserSessions | cleanupExpired | restart =>
      simp [AuthCommand.answer, AuthState.onStore, AuthState.onSessions, Tells, Entry.event]

end History

section Run

variable {ι : Type} [DecidableEq ι] {hashToken : String → String} {parseUuid : String → Option Uuid}
  {app : AuthAppState} {visits : ι → Visit} {turns : List (ι × AuthExternals)}

theorem registered_of_letsIn {i : ι} {parts : Parts} {signIn : SignIn ι}
    (h : signIn.LetsIn hashToken (authRun hashToken parseUuid app visits turns).journal i parts)
    : PgUserRepository.Registered signIn.data.claims.subject signIn.data.userId.val
        (replay (AuthCommand.answer hashToken) .new
          (authRun hashToken parseUuid app visits turns).journal).users := by
  obtain ⟨_, _, earlier, since, after, hjournal, _, _, _, _, hsublist⟩ := h.journal
  refine (registered_iff answered_authRun).mpr ⟨signIn.found, ?_, _, _, rfl⟩
  have hfound : signIn.found ∈ earlier := hsublist.subset (by simp)
  rw [hjournal]
  simp [hfound]

/--
Requests are let in as the same user if and only if the logins behind them were told the same subject.
-/
theorem same_user_iff_same_subject {i j : ι} {parts parts' : Parts} {signIn signIn' : SignIn ι}
    (h : signIn.LetsIn hashToken (authRun hashToken parseUuid app visits turns).journal i parts)
    (h' : signIn'.LetsIn hashToken (authRun hashToken parseUuid app visits turns).journal j parts')
    : signIn.data.userId = signIn'.data.userId ↔ signIn.data.claims.subject = signIn'.data.claims.subject := by
  obtain ⟨row, hrow, hid⟩ := registered_of_letsIn h
  obtain ⟨row', hrow', hid'⟩ := registered_of_letsIn h'
  constructor
  . intro huser
    have hsame : row'.id = row.id := by rw [hid, hid', huser]
    exact distinctIds_replay answered_authRun _ _ row row' row.id hrow hrow' rfl (congrArg some hsame)
  . intro hsubject
    rw [hsubject, hrow'] at hrow
    cases hrow
    exact congrArg UserId.mk (hid.symm.trans hid')

theorem same_user_iff_same_subject_sampleRun
    : (sampleSignIn 0 1).data.userId = (sampleSignIn 4 5).data.userId
        ↔ (sampleSignIn 0 1).data.claims.subject = (sampleSignIn 4 5).data.claims.subject := by
  have hfirst : (sampleSignIn 0 1).LetsIn id sampleRun.journal 2 ⟨.post, sampleSignedIn 1⟩ := by
    refine ⟨fun _ => rfl, sampleText 1, sampleAuthExternals 2, sampleRun.journal.take 5, [],
      sampleRun.journal.drop 7, rfl, by decide +kernel, rfl, by decide +kernel, by simp, ?_⟩
    exact List.Sublist.refl _
  have hsecond : (sampleSignIn 4 5).LetsIn id sampleRun.journal 6 ⟨.post, sampleSignedIn 5⟩ := by
    refine ⟨fun _ => rfl, sampleText 5, sampleAuthExternals 6, sampleRun.journal.take 12, [],
      sampleRun.journal.drop 14, rfl, by decide +kernel, rfl, by decide +kernel, by simp, ?_⟩
    exact List.sublist_append_right (sampleRun.journal.take 7) _
  exact same_user_iff_same_subject hfirst hsecond

/--
What is kept of the profile of a user is what the latest login with an answer has told. A login that tells
nothing erases nothing.
-/
theorem profile_iff_latest_told (field : ProfileField) (externalId text : String)
    : ((authRun hashToken parseUuid app visits turns).shared.users.find? externalId).bind field.of = some text
        ↔ Since (Tells field externalId text) (fun entry => ∃ text', Tells field externalId text' entry)
          (authRun hashToken parseUuid app visits turns).journal := by
  have haccounts : Accounts (AuthCommand.answer hashToken) .new (fun i => (visits i).program parseUuid app)
      (authRun hashToken parseUuid app visits turns) := accounts_authRun
  rw [haccounts.shared]
  exact shows_iff haccounts.answered

end Run

end Identity
