import Haiker.Identity.Oidc
import Haiker.Rust.HashMap
import Haiker.Rust.UuidText
import Haiker.Sql.Index

/-!
This module contains the store of the login flows that have begun, the tables of the users and of the sessions,
and what each access to them does. A statement that fails changes nothing.
-/

open Rust

namespace Identity

/-
The logins that have begun.
-/

structure StateEntry where
  nonce : String
  codeVerifier : String
  expiresAt : Timestamp

structure OidcStateStore where
  entries : HashMap String StateEntry
  ttl : Int

-- ten minutes, in nanoseconds
def DEFAULT_TTL : Int := 600 * 1000000000

namespace OidcStateStore

def new : OidcStateStore where
  entries := .empty
  ttl := DEFAULT_TTL

-- what has expired is dropped on the way
def storeState (now : Timestamp) (state nonce codeVerifier : String) (store : OidcStateStore) : OidcStateStore :=
  let kept := store.entries.retain fun _ entry => entry.expiresAt > now
  { store with entries := kept.insert state { nonce, codeVerifier, expiresAt := now + store.ttl } }

def consumeState (now : Timestamp) (state : String) (store : OidcStateStore)
    : Option (String × String) × OidcStateStore :=
  match store.entries.get? state with
  | none => (none, store)
  | some entry =>
    let pair := if entry.expiresAt > now then some (entry.nonce, entry.codeVerifier) else none
    (pair, { store with entries := store.entries.remove state })

end OidcStateStore

/-
The tables `identity.users` and `identity.sessions`.
-/

structure UserRow where
  id : Uuid
  externalId : String
  email : Option String
  displayName : Option String
  createdAt : Timestamp
  updatedAt : Timestamp

-- `external_id TEXT NOT NULL UNIQUE`
abbrev UserTable := Sql.Table UserRow.externalId

structure Session where
  id : Uuid
  userId : Uuid
  tokenHash : String
  csrfToken : String
  expiresAt : Timestamp
  createdAt : Timestamp
  revokedAt : Option Timestamp

-- `CREATE UNIQUE INDEX idx_sessions_token_hash`
abbrev SessionTable := Sql.Table Session.tokenHash

structure SessionInfo where
  userId : Uuid
  csrfToken : String
  sessionId : Uuid
  deriving DecidableEq

def Session.info (session : Session) : SessionInfo where
  userId := session.userId
  csrfToken := session.csrfToken
  sessionId := session.id

/--
What is shared by all requests.
-/
structure AuthState where
  stateStore : OidcStateStore
  users : UserTable
  sessions : SessionTable

def AuthState.new : AuthState where
  stateStore := .new
  users := .empty
  sessions := .empty

structure AuthorizationUrl where
  url : String
  state : String
  nonce : String
  codeVerifier : String

/--
The clocks, the UUIDs that are drawn, what the database says when it fails, and the answers of the provider.
-/
structure AuthExternals where
  -- `Instant::now()`
  instant : Timestamp
  -- `chrono::Utc::now()`
  utcNow : Timestamp
  -- `now()` of the database
  dbNow : Timestamp
  outage : Option String
  -- about a constraint that is violated
  violation : String
  newUserId : Uuid
  newSessionId : Uuid
  rawToken : Uuid
  csrfToken : Uuid
  authorizationUrl : Except AuthenticationError AuthorizationUrl
  exchangeCode : (code nonce codeVerifier : String) → Except AuthenticationError OidcClaims

namespace PgUserRepository

/--
`INSERT .. ON CONFLICT (external_id) DO UPDATE .. RETURNING id`. Only the conflict on the external id is
resolved, another one on the primary key is an error.
-/
def upsert (externals : AuthExternals) (externalId : String) (email name : Option String) (users : UserTable)
    : Except String Uuid × UserTable :=
  match users.find? externalId with
  | some row =>
    let update : UserRow → UserRow := fun row =>
      { row with
        email := email.or row.email
        displayName := name.or row.displayName
        updatedAt := externals.dbNow }
    (.ok row.id, users.updateWhere (fun row => row.externalId = externalId) update fun _ => rfl)
  | none =>
    let row := {
      id := externals.newUserId
      externalId
      email
      displayName := name
      createdAt := externals.dbNow
      updatedAt := externals.dbNow
    }
    if users.clashes (fun row => some row.id) row then
      (.error externals.violation, users)
    else
      match users.insert? row with
      | some users => (.ok row.id, users)
      | none => (.error externals.violation, users)

def findOrCreateByExternalId (externals : AuthExternals) (externalId : String) (email name : Option String)
    (users : UserTable) : Except AuthenticationError UserId × UserTable :=
  let failed := fun message => AuthenticationError.persistenceError ("user upsert failed: " ++ message)
  match externals.outage with
  | some message => (.error (failed message), users)
  | none =>
    match upsert externals externalId email name users with
    | (.ok id, users) => (.ok ⟨id⟩, users)
    | (.error message, users) => (.error (failed message), users)

end PgUserRepository

namespace SessionStore

variable (hashToken : String → String) (externals : AuthExternals)

def newSession (userId : Uuid) (duration : Int) : Session where
  id := externals.newSessionId
  userId
  tokenHash := hashToken externals.rawToken.hyphenated
  csrfToken := externals.csrfToken.hyphenated
  expiresAt := (externals.utcNow + duration * 1000000000).toTimestamptz
  createdAt := externals.dbNow
  revokedAt := none

/--
The session is inserted unless its id or the hash of its token is taken, or there is no such user.
-/
def createSession (userId : Uuid) (duration : Int) (users : UserTable) (sessions : SessionTable)
    : Except String (String × String) × SessionTable :=
  let session := newSession hashToken externals userId duration
  match externals.outage with
  | some message => (.error message, sessions)
  | none =>
    if sessions.clashes (fun row => some row.id) session ∨ users.rows.all (fun row => row.id ≠ userId) then
      (.error externals.violation, sessions)
    else
      match sessions.insert? session with
      | some sessions => (.ok (externals.rawToken.hyphenated, session.csrfToken), sessions)
      | none => (.error externals.violation, sessions)

def validateSession (rawToken : String) (sessions : SessionTable) : Except String (Option SessionInfo) :=
  match externals.outage with
  | some message => .error message
  | none =>
    let found := sessions.find? (hashToken rawToken)
    .ok ((found.filter fun row => row.expiresAt > externals.dbNow ∧ row.revokedAt = none).map Session.info)

def revokeWhere (p : Session → Bool) (sessions : SessionTable) : SessionTable :=
  sessions.updateWhere (fun row => p row && row.revokedAt.isNone)
    (fun row => { row with revokedAt := some externals.dbNow }) fun _ => rfl

def revokeSession (sessionId : Uuid) (sessions : SessionTable) : Except String Unit × SessionTable :=
  match externals.outage with
  | some message => (.error message, sessions)
  | none => (.ok (), revokeWhere externals (fun row => row.id = sessionId) sessions)

def revokeAllUserSessions (userId : Uuid) (sessions : SessionTable) : Except String Unit × SessionTable :=
  match externals.outage with
  | some message => (.error message, sessions)
  | none => (.ok (), revokeWhere externals (fun row => row.userId = userId) sessions)

def cleanupExpired (sessions : SessionTable) : Except String Nat × SessionTable :=
  let expired : Session → Bool := fun row => row.expiresAt ≤ externals.dbNow
  match externals.outage with
  | some message => (.error message, sessions)
  | none => (.ok (sessions.count expired), sessions.deleteWhere expired)

end SessionStore

/-
The accesses, each of which comes all at once.
-/

inductive AuthCommand where
  | authorizationUrl
  | storeState (state nonce codeVerifier : String)
  | consumeState (state : String)
  | exchangeCode (code nonce codeVerifier : String)
  | findOrCreateByExternalId (externalId : String) (email name : Option String)
  | createSession (userId : Uuid) (duration : Int)
  | validateSession (rawToken : String)
  | revokeSession (sessionId : Uuid)
  | revokeAllUserSessions (userId : Uuid)
  | cleanupExpired
  -- the logins that have begun are in memory only
  | restart

abbrev AuthCommand.Reply : AuthCommand → Type
  | .authorizationUrl => Except AuthenticationError AuthorizationUrl
  | .storeState _ _ _ => Unit
  | .consumeState _ => Option (String × String)
  | .exchangeCode _ _ _ => Except AuthenticationError OidcClaims
  | .findOrCreateByExternalId _ _ _ => Except AuthenticationError UserId
  | .createSession _ _ => Except String (String × String)
  | .validateSession _ => Except String (Option SessionInfo)
  | .revokeSession _ => Except String Unit
  | .revokeAllUserSessions _ => Except String Unit
  | .cleanupExpired => Except String Nat
  | .restart => Unit

namespace AuthState

def onStore {α : Type} (access : OidcStateStore → α × OidcStateStore) (state : AuthState) : α × AuthState :=
  ((access state.stateStore).1, { state with stateStore := (access state.stateStore).2 })

def onUsers {α : Type} (access : UserTable → α × UserTable) (state : AuthState) : α × AuthState :=
  ((access state.users).1, { state with users := (access state.users).2 })

def onSessions {α : Type} (access : SessionTable → α × SessionTable) (state : AuthState) : α × AuthState :=
  ((access state.sessions).1, { state with sessions := (access state.sessions).2 })

end AuthState

def AuthCommand.answer (hashToken : String → String) (externals : AuthExternals)
    : (command : AuthCommand) → AuthState → command.Reply × AuthState
  | .authorizationUrl, state => (externals.authorizationUrl, state)
  | .storeState key nonce codeVerifier, state =>
    state.onStore fun store => ((), store.storeState externals.instant key nonce codeVerifier)
  | .consumeState key, state => state.onStore (OidcStateStore.consumeState externals.instant key)
  | .exchangeCode code nonce codeVerifier, state => (externals.exchangeCode code nonce codeVerifier, state)
  | .findOrCreateByExternalId externalId email name, state =>
    state.onUsers (PgUserRepository.findOrCreateByExternalId externals externalId email name)
  | .createSession userId duration, state =>
    state.onSessions (SessionStore.createSession hashToken externals userId duration state.users)
  | .validateSession rawToken, state =>
    (SessionStore.validateSession hashToken externals rawToken state.sessions, state)
  | .revokeSession sessionId, state => state.onSessions (SessionStore.revokeSession externals sessionId)
  | .revokeAllUserSessions userId, state =>
    state.onSessions (SessionStore.revokeAllUserSessions externals userId)
  | .cleanupExpired, state => state.onSessions (SessionStore.cleanupExpired externals)
  | .restart, state => state.onStore fun _ => ((), .new)

end Identity
