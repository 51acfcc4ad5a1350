import Haiker.Identity.LoginFlow

/-!
This module contains the sessions as a function of what has been carried out: a token is valid from the moment
its session is created until it is revoked, cleaned up or expires.
-/

open Rust
open Journal

namespace Identity

namespace SessionStore

/--
There is a session under the hash that has not been revoked.
-/
def Open (tokenHash : String) (info : SessionInfo) (expiresAt : Timestamp) (sessions : SessionTable) : Prop :=
  ∃ row, sessions.find? tokenHash = some row ∧ row.revokedAt = none ∧ row.info = info ∧ row.expiresAt = expiresAt

variable {hashToken : String → String} {externals : AuthExternals} {sessions : SessionTable} {users : UserTable}
  {tokenHash : String} {info : SessionInfo} {expiresAt : Timestamp}

theorem validateSession_eq_ok_some_iff {rawToken : String}
    : validateSession hashToken externals rawToken sessions = .ok (some info)
        ↔ externals.outage = none
          ∧ ∃ expiresAt, Open (hashToken rawToken) info expiresAt sessions ∧ externals.dbNow < expiresAt := by
  unfold validateSession
  cases externals.outage with
  | some message => simp
  | none =>
    have hinfo : ∀ row : Session,
        (row.expiresAt > externals.dbNow ∧ row.revokedAt = none) ∧ row.info = info
          ↔ ∃ expiresAt, (row.revokedAt = none ∧ row.info = info ∧ row.expiresAt = expiresAt)
            ∧ externals.dbNow < expiresAt := by
      intro row
      constructor
      . rintro ⟨⟨hexpires, hrevoked⟩, hinfo⟩
        exact ⟨row.expiresAt, ⟨hrevoked, hinfo, rfl⟩, hexpires⟩
      . rintro ⟨_, ⟨hrevoked, hinfo, rfl⟩, hexpires⟩
        exact ⟨⟨hexpires, hrevoked⟩, hinfo⟩
    cases hfind : sessions.find? (hashToken rawToken) with
    | none => simp [Open, hfind]
    | some row =>
      have hrow := hinfo row
      simp only [Open, hfind, Option.some.injEq, exists_eq_left', Except.ok.injEq, Option.map_eq_some_iff,
        Option.filter_eq_some_iff, decide_eq_true_eq, true_and]
      constructor
      . rintro ⟨row', ⟨rfl, hrest⟩, hinfo⟩
        exact hrow.mp ⟨hrest, hinfo⟩
      . intro h
        exact ⟨row, ⟨rfl, (hrow.mpr h).1⟩, (hrow.mpr h).2⟩

/--
What creating a session can come to.
-/
theorem createSession_cases (hashToken : String → String) (externals : AuthExternals) (userId : Uuid) (duration : Int)
    (users : UserTable) (sessions : SessionTable)
    : (∃ message, createSession hashToken externals userId duration users sessions = (.error message, sessions))
        ∨ ∃ sessions', sessions.insert? (newSession hashToken externals userId duration) = some sessions'
          ∧ createSession hashToken externals userId duration users sessions
            = (.ok (externals.rawToken.hyphenated, externals.csrfToken.hyphenated), sessions')
          ∧ ∃ row ∈ users.rows, row.id = userId := by
  unfold createSession
  dsimp only
  cases externals.outage with
  | some message => exact .inl ⟨message, rfl⟩
  | none =>
    dsimp only
    split
    . exact .inl ⟨_, rfl⟩
    . next hfree =>
      cases hinsert : sessions.insert? (newSession hashToken externals userId duration) with
      | none => exact .inl ⟨_, rfl⟩
      | some sessions' =>
        refine .inr ⟨sessions', rfl, rfl, ?_⟩
        by_contra hnone
        apply hfree
        right
        rw [List.all_eq_true]
        intro row hrow
        simpa using fun hid => hnone ⟨row, hrow, hid⟩

theorem Open.info_eq {info' : SessionInfo} {expiresAt' : Timestamp} (h : Open tokenHash info expiresAt sessions)
    (h' : Open tokenHash info' expiresAt' sessions) : info = info' := by
  obtain ⟨row, hrow, _, rfl, _⟩ := h
  obtain ⟨row', hrow', _, rfl, _⟩ := h'
  rw [hrow] at hrow'
  cases hrow'
  rfl

theorem open_insert? {session : Session} {sessions' : SessionTable}
    (hinsert : sessions.insert? session = some sessions') (hnew : session.revokedAt = none)
    : Open tokenHash info expiresAt sessions'
        ↔ (tokenHash = session.tokenHash ∧ session.info = info ∧ session.expiresAt = expiresAt)
          ∨ Open tokenHash info expiresAt sessions := by
  unfold Open
  rw [Sql.Table.find?_insert? hinsert]
  split
  . next hhash =>
    rw [hhash, Sql.Table.find?_eq_none_of_insert? hinsert]
    simp [hnew]
  . next hhash => simp [hhash]

theorem open_revokeWhere {p : Session → Bool} (q : SessionInfo → Bool) (hp : ∀ row : Session, p row = q row.info)
    : Open tokenHash info expiresAt (revokeWhere externals p sessions)
        ↔ Open tokenHash info expiresAt sessions ∧ q info = false := by
  unfold Open revokeWhere
  rw [Sql.Table.find?_updateWhere]
  cases hfind : sessions.find? tokenHash with
  | none => simp
  | some row =>
    by_cases hrevoked : row.revokedAt = none
    . cases hq : q row.info with
      | false =>
        simp only [hp, hq, hrevoked, Option.map_some, Option.some.injEq, exists_eq_left', Bool.false_and,
          Bool.false_eq_true, if_false, true_and]
        constructor
        . rintro ⟨rfl, rfl⟩
          exact ⟨⟨rfl, rfl⟩, hq⟩
        . exact And.left
      | true =>
        simp only [hp, hq, hrevoked, Option.map_some, Option.some.injEq, exists_eq_left', Bool.true_and,
          Option.isNone_none, if_true, true_and]
        refine iff_of_false (fun h => by cases h.1) ?_
        rintro ⟨⟨rfl, _⟩, hfalse⟩
        rw [hq] at hfalse
        cases hfalse
    . simp [hrevoked]

theorem open_deleteWhere_expired
    : Open tokenHash info expiresAt (sessions.deleteWhere fun row => row.expiresAt ≤ externals.dbNow)
        ↔ Open tokenHash info expiresAt sessions ∧ externals.dbNow < expiresAt := by
  unfold Open
  rw [Sql.Table.find?_deleteWhere]
  cases hfind : sessions.find? tokenHash with
  | none => simp
  | some row =>
    constructor
    . rintro ⟨row', hfilter, hrevoked, rfl, rfl⟩
      obtain ⟨hrow, hlive⟩ := Option.filter_eq_some_iff.mp hfilter
      exact ⟨⟨row', hrow, hrevoked, rfl, rfl⟩, by simpa using hlive⟩
    . rintro ⟨⟨row', hrow, hrevoked, rfl, rfl⟩, hlive⟩
      exact ⟨row', Option.filter_eq_some_iff.mpr ⟨hrow, by simpa using hlive⟩, hrevoked, rfl, rfl⟩

end SessionStore

/-
The same of the journal.
-/

section History

variable {ι : Type}

/--
A session has been created for a token of the given hash.
-/
def Opens (hashToken : String → String) (tokenHash : String) (info : SessionInfo) (expiresAt : Timestamp)
    (entry : AuthEntry ι) : Prop :=
  ∃ duration rawToken, entry.event = ⟨.createSession info.userId duration, .ok (rawToken, info.csrfToken)⟩
    ∧ hashToken rawToken = tokenHash ∧ entry.env.newSessionId = info.sessionId
    ∧ (entry.env.utcNow + duration * 1000000000).toTimestamptz = expiresAt

/--
The session, or all of its user, have been revoked.
-/
def Revokes (info : SessionInfo) (entry : AuthEntry ι) : Prop :=
  entry.event = ⟨.revokeSession info.sessionId, .ok ()⟩
    ∨ entry.event = ⟨.revokeAllUserSessions info.userId, .ok ()⟩

def CleansUp (expiresAt : Timestamp) (entry : AuthEntry ι) : Prop :=
  (∃ count, entry.event = ⟨.cleanupExpired, .ok count⟩) ∧ expiresAt ≤ entry.env.dbNow

def Closes (info : SessionInfo) (expiresAt : Timestamp) (entry : AuthEntry ι) : Prop :=
  Revokes info entry ∨ CleansUp expiresAt entry

variable {hashToken : String → String} {tokenHash : String} {info : SessionInfo} {expiresAt : Timestamp}

theorem Opens.command {entry : AuthEntry ι} (h : Opens hashToken tokenHash info expiresAt entry)
    : ∃ duration, entry.command = .createSession info.userId duration := by
  obtain ⟨duration, _, hevent, _⟩ := h
  exact ⟨duration, congrArg Sigma.fst hevent⟩

theorem opens_created {client : ι} {externals : AuthExternals} {userId : Uuid} {duration : Int}
    {rawToken csrfToken : String}
    : Opens hashToken tokenHash info expiresAt
          (⟨client, externals, .createSession userId duration, .ok (rawToken, csrfToken)⟩ : AuthEntry ι)
        ↔ tokenHash = hashToken rawToken ∧ (⟨userId, csrfToken, externals.newSessionId⟩ : SessionInfo) = info
          ∧ (externals.utcNow + duration * 1000000000).toTimestamptz = expiresAt := by
  obtain ⟨userId', csrfToken', sessionId⟩ := info
  constructor
  . rintro ⟨duration, rawToken, hevent, hhash, hid, hexpires⟩
    cases hevent
    exact ⟨hhash.symm, congrArg (SessionInfo.mk userId' csrfToken') hid, hexpires⟩
  . rintro ⟨hhash, hinfo, hexpires⟩
    cases hinfo
    exact ⟨duration, rawToken, rfl, hhash.symm, rfl, hexpires⟩

/--
What one access does to the sessions.
-/
theorem open_answer (state : AuthState) (client : ι) (externals : AuthExternals) (command : AuthCommand)
    : SessionStore.Open tokenHash info expiresAt (command.answer hashToken externals state).2.sessions
        ↔ Opens hashToken tokenHash info expiresAt
            (⟨client, externals, command, (command.answer hashToken externals state).1⟩ : AuthEntry ι)
          ∨ SessionStore.Open tokenHash info expiresAt state.sessions
            ∧ ¬Closes info expiresAt
              (⟨client, externals, command, (command.answer hashToken externals state).1⟩ : AuthEntry ι) := by
  cases command with
  | authorizationUrl | storeState | consumeState | exchangeCode | findOrCreateByExternalId | validateSession
  | restart =>
    simp [Opens, Closes, Revokes, CleansUp, Entry.event, AuthCommand.answer, AuthState.onStore, AuthState.onUsers]
  | createSession userId duration =>
    have hcases := SessionStore.createSession_cases hashToken externals userId duration state.users state.sessions
    rcases hcases with ⟨message, hfailed⟩ | ⟨sessions', hinsert, hcreated, _⟩
    . simp [Opens, Closes, Revokes, CleansUp, Entry.event, AuthCommand.answer, AuthState.onSessions, hfailed]
    . simp only [AuthCommand.answer, AuthState.onSessions, hcreated, SessionStore.open_insert? hinsert rfl]
      apply or_congr
      . rw [opens_created]
        rfl
      . simp [Closes, Revokes, CleansUp, Entry.event]
  | revokeSession sessionId =>
    simp only [AuthCommand.answer, AuthState.onSessions, SessionStore.revokeSession]
    cases externals.outage with
    | some message => simp [Opens, Closes, Revokes, CleansUp, Entry.event]
    | none =>
      dsimp only
      let q : SessionInfo → Bool := fun info => info.sessionId = sessionId
      have hp : ∀ row : Session, decide (row.id = sessionId) = q row.info := fun _ => rfl
      rw [SessionStore.open_revokeWhere q hp]
      simp [Opens, Closes, Revokes, CleansUp, Entry.event, q, eq_comm]
  | revokeAllUserSessions userId =>
    simp only [AuthCommand.answer, AuthState.onSessions, SessionStore.revokeAllUserSessions]
    cases externals.outage with
    | some message => simp [Opens, Closes, Revokes, CleansUp, Entry.event]
    | none =>
      dsimp only
      let q : SessionInfo → Bool := fun info => info.userId = userId
      have hp : ∀ row : Session, decide (row.userId = userId) = q row.info := fun _ => rfl
      rw [SessionStore.open_revokeWhere q hp]
      simp [Opens, Closes, Revokes, CleansUp, Entry.event, q, eq_comm]
  | cleanupExpired =>
    simp only [AuthCommand.answer, AuthState.onSessions, SessionStore.cleanupExpired]
    cases externals.outage with
    | some message => simp [Opens, Closes, Revokes, CleansUp, Entry.event]
    | none =>
      dsimp only
      rw [SessionStore.open_deleteWhere_expired]
      simp [Opens, Closes, Revokes, CleansUp, Entry.event]

end History

section Run

variable {ι : Type} [DecidableEq ι] {hashToken : String → String} {parseUuid : String → Option Uuid}
  {app : AuthAppState} {visits : ι → Visit} {turns : List (ι × AuthExternals)}

omit [DecidableEq ι] in
theorem open_replay_iff {journal : List (AuthEntry ι)} {tokenHash : String} {info : SessionInfo}
    {expiresAt : Timestamp} (h : Answered (AuthCommand.answer hashToken) .new journal)
    : SessionStore.Open tokenHash info expiresAt (replay (AuthCommand.answer hashToken) .new journal).sessions
        ↔ Since (Opens hashToken tokenHash info expiresAt) (Closes info expiresAt) journal := by
  apply h.since_iff fun state => SessionStore.Open tokenHash info expiresAt state.sessions
  . rintro ⟨row, hrow, _⟩
    cases hrow
  . exact open_answer

theorem valid_iff_since {before after : List (AuthEntry ι)} {client : ι} {externals : AuthExternals}
    {rawToken : String} {reply : Except String (Option SessionInfo)} {info : SessionInfo}
    (hjournal : (authRun hashToken parseUuid app visits turns).journal
      = before ++ ⟨client, externals, .validateSession rawToken, reply⟩ :: after)
    : reply = .ok (some info)
        ↔ externals.outage = none
          ∧ ∃ expiresAt, externals.dbNow < expiresAt
            ∧ Since (Opens hashToken (hashToken rawToken) info expiresAt) (Closes info expiresAt) before := by
  have hreply := answered_authRun before _ after hjournal
  have hvalid : reply = SessionStore.validateSession hashToken externals rawToken
      (replay (AuthCommand.answer hashToken) .new before).sessions := hreply
  rw [hvalid, SessionStore.validateSession_eq_ok_some_iff]
  simp only [open_replay_iff (answered_before hjournal), and_comm]

/--
A token is valid as some session if and only if the session has been created for a token of the same hash, has
not expired, and has been neither revoked nor cleaned up since.
-/
theorem validateSession_iff {before after : List (AuthEntry ι)} {client : ι} {externals : AuthExternals}
    {rawToken : String} {reply : Except String (Option SessionInfo)} {info : SessionInfo}
    (hjournal : (authRun hashToken parseUuid app visits turns).journal
      = before ++ ⟨client, externals, .validateSession rawToken, reply⟩ :: after)
    : reply = .ok (some info)
        ↔ externals.outage = none
          ∧ ∃ expiresAt earlier created since, before = earlier ++ created :: since
            ∧ Opens hashToken (hashToken rawToken) info expiresAt created
            ∧ externals.dbNow < expiresAt
            ∧ ∀ entry ∈ since, ¬Closes info expiresAt entry := by
  rw [valid_iff_since hjournal]
  constructor
  . rintro ⟨houtage, expiresAt, hexpires, earlier, created, since, hbefore, hopens, hlasts⟩
    exact ⟨houtage, expiresAt, earlier, created, since, hbefore, hopens, hexpires, hlasts⟩
  . rintro ⟨houtage, expiresAt, earlier, created, since, hbefore, hopens, hexpires, hlasts⟩
    exact ⟨houtage, expiresAt, hexpires, earlier, created, since, hbefore, hopens, hlasts⟩

theorem validateSession_iff_sampleRun
    : ∃ expiresAt earlier created since, sampleRun.journal.take 6 = earlier ++ created :: since
        ∧ Opens id (sampleText 1) ⟨⟨1⟩, sampleText 1, ⟨1⟩⟩ expiresAt created
        ∧ 2 < expiresAt
        ∧ ∀ entry ∈ since, ¬Closes ⟨⟨1⟩, sampleText 1, ⟨1⟩⟩ expiresAt entry := by
  have hjournal : sampleRun.journal
      = sampleRun.journal.take 6
        ++ ⟨2, sampleAuthExternals 2, .validateSession (sampleText 1), .ok (some ⟨⟨1⟩, sampleText 1, ⟨1⟩⟩)⟩
          :: sampleRun.journal.drop 7 := rfl
  exact ((validateSession_iff hjournal).mp rfl).2

/--
A logout that has not been rejected asks to revoke the session of its cookie. If the database does it, then from
there on nobody is let in with the cookie, unless a session has been created for a token of the same hash after
the logout had begun.
-/
theorem no_session_after_logout {i : ι} {headers : HeaderMap} {response : AuthResponse} {rawToken : String}
    (hvisit : visits i = .logout headers) (hcookie : extractSessionCookie headers = some rawToken)
    (hdone : (authRun hashToken parseUuid app visits turns).programs i = .done (.response response))
    (hstatus : response.status = 204) {before after : List (AuthEntry ι)} {externals : AuthExternals}
    {info : SessionInfo}
    (hjournal : (authRun hashToken parseUuid app visits turns).journal
      = before ++ ⟨i, externals, .validateSession rawToken, .ok (some info)⟩ :: after)
    : ∃ mid externals' reply later, after = mid ++ ⟨i, externals', .revokeSession info.sessionId, reply⟩ :: later
        ∧ (reply = .ok () → ∀ mid' j externals'' rawToken' info' rest,
          later = mid' ++ ⟨j, externals'', .validateSession rawToken', .ok (some info')⟩ :: rest →
            hashToken rawToken' = hashToken rawToken →
              ∃ entry ∈ mid ++ mid', ∃ expiresAt, Opens hashToken (hashToken rawToken) info' expiresAt entry) := by
  have hasked := asks_of_journal hjournal
  have hended := endsIn_of_done hdone
  rw [hvisit] at hasked hended
  have hnothing : log i before = [] := hasked.1
  have hlog : log i (authRun hashToken parseUuid app visits turns).journal
      = ⟨.validateSession rawToken, .ok (some info)⟩ :: log i after := by
    have hsplit := log_of_eq hjournal
    rw [hnothing] at hsplit
    exact hsplit
  obtain ⟨reply, hreply⟩ := hended hstatus rawToken info hcookie (by rw [hlog]; exact List.mem_cons_self)
  rw [hlog] at hreply
  rcases List.mem_cons.mp hreply with hsame | hlater
  . cases hsame
  obtain ⟨mid, externals', later, rfl⟩ := exists_of_mem_log hlater
  refine ⟨mid, externals', reply, later, rfl, ?_⟩
  rintro rfl mid' j externals'' rawToken' info' rest rfl hhash
  let validated : AuthEntry ι := ⟨i, externals, .validateSession rawToken, .ok (some info)⟩
  let revoked : AuthEntry ι := ⟨i, externals', .revokeSession info.sessionId, .ok ()⟩
  have hjournal' : (authRun hashToken parseUuid app visits turns).journal
      = (before ++ (validated :: mid ++ revoked :: mid'))
        ++ ⟨j, externals'', .validateSession rawToken', .ok (some info')⟩ :: rest := by
    rw [hjournal]
    simp [validated, revoked]
  obtain ⟨_, expiresAt, _, hvalid⟩ := (valid_iff_since hjournal).mp rfl
  obtain ⟨_, expiresAt', _, hvalid'⟩ := (valid_iff_since hjournal').mp rfl
  rw [hhash] at hvalid'
  rcases hvalid'.of_append with ⟨hbefore, hlasts⟩ | ⟨entry, hmem, hopens⟩
  . -- it is the session that has been revoked
    have hanswered := answered_before hjournal
    have hinfo := ((open_replay_iff hanswered).mpr hvalid).info_eq ((open_replay_iff hanswered).mpr hbefore)
    have hcloses : Closes info' expiresAt' revoked := by
      rw [← hinfo]
      exact .inl (.inl rfl)
    exact absurd hcloses (hlasts revoked (by simp))
  . refine ⟨entry, ?_, expiresAt', hopens⟩
    obtain ⟨duration, hcommand⟩ := hopens.command
    simp only [List.cons_append, List.mem_cons, List.mem_append] at hmem ⊢
    rcases hmem with rfl | hmid | rfl | hmid'
    . cases hcommand
    . exact .inl hmid
    . cases hcommand
    . exact .inr hmid'

theorem no_session_after_logout_sampleRun
    : ∃ mid externals reply later,
        sampleRun.journal.drop 15 = mid ++ ⟨3, externals, .revokeSession ⟨1⟩, reply⟩ :: later
          ∧ (reply = .ok () → ∀ mid' j externals' rawToken info rest,
            later = mid' ++ ⟨j, externals', .validateSession rawToken, .ok (some info)⟩ :: rest →
              id rawToken = id (sampleText 1) →
                ∃ entry ∈ mid ++ mid', ∃ expiresAt, Opens id (id (sampleText 1)) info expiresAt entry) := by
  have hjournal : sampleRun.journal
      = sampleRun.journal.take 14
        ++ ⟨3, sampleAuthExternals 3, .validateSession (sampleText 1), .ok (some ⟨⟨1⟩, sampleText 1, ⟨1⟩⟩)⟩
          :: sampleRun.journal.drop 15 := rfl
  have hdone : sampleRun.programs 3 = .done (.response (loggedOut sampleAuthApp)) := rfl
  have hvisit : sampleVisits 3 = .logout (sampleSignedIn 1) := rfl
  exact no_session_after_logout hvisit (by decide +kernel) hdone rfl hjournal

end Run

end Identity
