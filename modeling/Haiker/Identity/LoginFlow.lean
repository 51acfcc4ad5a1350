import Haiker.Identity.AuthHandlers

/-!
This module contains which commands the visits give after which replies, and what they end in.
-/

open Rust
open Journal

namespace Identity

abbrev AuthEvent := Program.Event AuthCommand.Reply

abbrev AuthEntry (ι : Type) := Entry ι AuthExternals AuthCommand.Reply

/--
What the callback of a login has learned by the time it starts a session.
-/
structure LoginData where
  state : String
  nonce : String
  codeVerifier : String
  code : String
  claims : OidcClaims
  userId : UserId
  deriving DecidableEq

namespace LoginData

variable (data : LoginData)

def consumed : AuthEvent := ⟨.consumeState data.state, some (data.nonce, data.codeVerifier)⟩

def exchanged : AuthEvent := ⟨.exchangeCode data.code data.nonce data.codeVerifier, .ok data.claims⟩

def found : AuthEvent :=
  ⟨.findOrCreateByExternalId data.claims.subject data.claims.email data.claims.name, .ok data.userId⟩

def opened (rawToken csrfToken : String) : AuthEvent :=
  ⟨.createSession data.userId.val SESSION_DURATION, .ok (rawToken, csrfToken)⟩

end LoginData

/--
The parameters of a callback that has not been turned down by the provider.
-/
structure CallbackParams.Are (params : CallbackParams) (code state : String) : Prop where
  error : params.error = none
  code : params.code = some code
  state : params.state = some state

namespace Visit

/--
The visit may give the command after what it has seen.
-/
def Asks (visit : Visit) (log : List AuthEvent) : AuthCommand → Prop
  | .authorizationUrl => visit = .login ∧ log = []
  | .storeState state nonce codeVerifier =>
    visit = .login ∧ ∃ url, log = [⟨.authorizationUrl, .ok ⟨url, state, nonce, codeVerifier⟩⟩]
  | .consumeState state => ∃ params code, visit = .callback params ∧ params.Are code state ∧ log = []
  | .exchangeCode code nonce codeVerifier =>
    ∃ params state, visit = .callback params ∧ params.Are code state
      ∧ log = [⟨.consumeState state, some (nonce, codeVerifier)⟩]
  | .findOrCreateByExternalId subject email name =>
    ∃ params code state nonce codeVerifier, visit = .callback params ∧ params.Are code state
      ∧ log = [⟨.consumeState state, some (nonce, codeVerifier)⟩,
        ⟨.exchangeCode code nonce codeVerifier, .ok ⟨subject, email, name⟩⟩]
  | .createSession userId duration =>
    duration = SESSION_DURATION ∧ ∃ params, ∃ data : LoginData, visit = .callback params
      ∧ params.Are data.code data.state ∧ data.userId.val = userId
      ∧ log = [data.consumed, data.exchanged, data.found]
  | .validateSession rawToken =>
    log = [] ∧ ∃ headers, extractSessionCookie headers = some rawToken
      ∧ (visit = .logout headers ∨ visit = .me headers ∨ ∃ method, visit = .request ⟨method, headers⟩)
  | .revokeSession sessionId =>
    ∃ headers rawToken info, visit = .logout headers ∧ extractSessionCookie headers = some rawToken
      ∧ headers CSRF_HEADER_NAME = some info.csrfToken ∧ info.sessionId = sessionId
      ∧ log = [⟨.validateSession rawToken, .ok (some info)⟩]
  | .revokeAllUserSessions userId => visit = .revokeAll userId
  | .cleanupExpired => visit = .cleanup
  | .restart => visit = .restart

/--
What a request that is let in has seen.
-/
structure LetIn (parts : Parts) (actor : Actor) (log : List AuthEvent) (rawToken : String) (info : SessionInfo)
    : Prop where
  cookie : extractSessionCookie parts.headers = some rawToken
  csrf : AuthSession.isStateChangingMethod parts.method = true →
    parts.headers CSRF_HEADER_NAME = some info.csrfToken
  actor : actor.userId.val = info.userId
  log : log = [⟨.validateSession rawToken, .ok (some info)⟩]

/--
What the end of a visit says about what it has seen.
-/
def EndsIn (parseUuid : String → Option Uuid) (app : AuthAppState) (visit : Visit) (outcome : Outcome)
    (log : List AuthEvent) : Prop :=
  match visit, outcome with
  | .callback params, .response response =>
    response.status = 200 →
      ∃ data : LoginData, ∃ rawToken csrfToken, params.Are data.code data.state
        ∧ response = callbackResponse app rawToken csrfToken data.userId
        ∧ log = [data.consumed, data.exchanged, data.found, data.opened rawToken csrfToken]
  | .request parts, .authenticated (.ok actor) =>
    (app.devAuthEnabled = true ∧ AuthSession.tryDevBearerAuth parseUuid parts = some actor)
      ∨ ∃ rawToken info, LetIn parts actor log rawToken info
  | .request parts, .authenticated (.error e) =>
    ∀ rawToken info, extractSessionCookie parts.headers = some rawToken →
      ⟨.validateSession rawToken, .ok (some info)⟩ ∈ log → e = .csrfMismatch
        ∧ AuthSession.isStateChangingMethod parts.method = true
        ∧ parts.headers CSRF_HEADER_NAME ≠ some info.csrfToken
  | .logout headers, .response response =>
    response.status = 204 → ∀ rawToken info, extractSessionCookie headers = some rawToken →
      ⟨.validateSession rawToken, .ok (some info)⟩ ∈ log →
        ∃ result, ⟨.revokeSession info.sessionId, result⟩ ∈ log
  | _, _ => True

variable {parseUuid : String → Option Uuid} {app : AuthAppState}

variable (parseUuid app) in
def Tracked (visit : Visit) (program : AuthM Outcome) (log : List AuthEvent) : Prop :=
  program.Tracks visit.Asks (fun _ _ _ => True) Program.record (visit.EndsIn parseUuid app) log

theorem tracks_login : Tracked parseUuid app .login (Visit.login.program parseUuid app) [] := by
  apply Program.Tracks.bind
  unfold postLogin
  split
  . trivial
  . refine ⟨⟨rfl, rfl⟩, ?_⟩
    rintro (e | authorization) _
    . trivial
    . exact ⟨⟨rfl, authorization.url, rfl⟩, fun _ _ => trivial⟩

section Callback

variable {params : CallbackParams} {code state : String}

theorem tracks_startSession (data : LoginData) (hparams : params.Are data.code data.state)
    : (startSession app data.claims).Tracks (Asks (.callback params)) (fun _ _ _ => True) Program.record
        (fun response => EndsIn parseUuid app (.callback params) (.response response))
        [data.consumed, data.exchanged] := by
  refine ⟨⟨params, _, _, _, _, rfl, hparams, rfl⟩, ?_⟩
  rintro (e | userId) _
  . exact fun h => absurd h (by decide)
  . let known : LoginData := { data with userId }
    refine ⟨⟨rfl, params, known, rfl, hparams, rfl, rfl⟩, ?_⟩
    rintro (e | ⟨rawToken, csrfToken⟩) _
    . exact fun h => absurd h (by decide)
    . exact fun _ => ⟨known, rawToken, csrfToken, hparams, rfl, rfl⟩

theorem tracks_completeLogin (hparams : params.Are code state)
    : (completeLogin app code state).Tracks (Asks (.callback params)) (fun _ _ _ => True) Program.record
        (fun response => EndsIn parseUuid app (.callback params) (.response response)) [] := by
  refine ⟨⟨params, code, rfl, hparams, rfl⟩, ?_⟩
  rintro (_ | ⟨nonce, codeVerifier⟩) _
  . exact fun h => absurd h (by decide)
  . refine ⟨⟨params, state, rfl, hparams, rfl⟩, ?_⟩
    rintro (e | claims) _
    . exact fun h => absurd h (by decide)
    . exact tracks_startSession ⟨state, nonce, codeVerifier, code, claims, ⟨⟨0⟩⟩⟩ hparams

theorem tracks_callback (params : CallbackParams)
    : Tracked parseUuid app (.callback params) ((Visit.callback params).program parseUuid app) [] := by
  apply Program.Tracks.bind
  unfold getCallback
  cases herror : params.error with
  | some error => exact fun h => absurd h (show ¬401 = 200 by decide)
  | none =>
    dsimp only
    split
    . exact fun h => absurd h (by decide)
    . cases hcode : params.code with
      | none => exact fun h => absurd h (by decide)
      | some code =>
        dsimp only
        cases hstate : params.state with
        | none => exact fun h => absurd h (by decide)
        | some state => exact tracks_completeLogin ⟨herror, hcode, hstate⟩

end Callback

theorem tracks_logout (headers : HeaderMap)
    : Tracked parseUuid app (.logout headers) ((Visit.logout headers).program parseUuid app) [] := by
  apply Program.Tracks.bind
  unfold postLogout
  cases hcookie : extractSessionCookie headers with
  | none =>
    intro _ rawToken info hsome
    rw [hcookie] at hsome
    cases hsome
  | some rawToken =>
    refine ⟨⟨rfl, headers, hcookie, .inl rfl⟩, ?_⟩
    rintro (e | _ | info) _
    . intro _ rawToken' info' _ hmem
      cases List.mem_singleton.mp hmem
    . intro _ rawToken' info' _ hmem
      cases List.mem_singleton.mp hmem
    . dsimp only [Program.bind]
      split
      . next hcsrf =>
        refine ⟨⟨headers, rawToken, info, rfl, hcookie, hcsrf, rfl, rfl⟩, ?_⟩
        intro result _ _ rawToken' info' _ hmem
        have hinfo : info' = info := by
          rcases List.mem_append.mp hmem with hfirst | hlast
          . cases List.mem_singleton.mp hfirst
            rfl
          . cases List.mem_singleton.mp hlast
        rw [hinfo]
        exact ⟨result, List.mem_append_right _ List.mem_cons_self⟩
      . exact fun h => absurd h (by decide)

theorem tracks_me (headers : HeaderMap)
    : Tracked parseUuid app (.me headers) ((Visit.me headers).program parseUuid app) [] := by
  apply Program.Tracks.bind
  unfold getMe
  cases hcookie : extractSessionCookie headers with
  | none => trivial
  | some rawToken =>
    refine ⟨⟨rfl, headers, hcookie, .inr (.inl rfl)⟩, ?_⟩
    rintro (e | _ | info) _
    . trivial
    . trivial
    . trivial

theorem tracks_fromCookie (parts : Parts)
    : (AuthSession.fromCookie parts).Tracks (Asks (.request parts)) (fun _ _ _ => True) Program.record
        (fun result => EndsIn parseUuid app (.request parts) (.authenticated result)) [] := by
  unfold AuthSession.fromCookie
  cases hcookie : extractCookieValue parts.headers SESSION_COOKIE_NAME with
  | none =>
    intro rawToken info hsome
    rw [extractSessionCookie, hcookie] at hsome
    cases hsome
  | some rawToken =>
    refine ⟨⟨rfl, parts.headers, hcookie, .inr (.inr ⟨parts.method, rfl⟩)⟩, ?_⟩
    rintro (e | _ | info) _
    . intro rawToken' info' _ hmem
      cases List.mem_singleton.mp hmem
    . intro rawToken' info' _ hmem
      cases List.mem_singleton.mp hmem
    . dsimp only [Program.bind]
      unfold AuthSession.checkCsrf
      split
      . next hmismatch =>
        intro rawToken' info' _ hmem
        cases List.mem_singleton.mp hmem
        exact ⟨rfl, hmismatch⟩
      . next hmatch =>
        refine .inr ⟨rawToken, info, hcookie, ?_, rfl, rfl⟩
        intro hmethod
        by_contra hne
        exact hmatch ⟨hmethod, hne⟩

theorem tracks_request (parts : Parts)
    : Tracked parseUuid app (.request parts) ((Visit.request parts).program parseUuid app) [] := by
  apply Program.Tracks.bind
  unfold AuthSession.fromRequestParts
  split
  . next hdev =>
    cases hbearer : AuthSession.tryDevBearerAuth parseUuid parts with
    | some actor => exact .inl ⟨hdev, hbearer⟩
    | none => exact tracks_fromCookie parts
  . exact tracks_fromCookie parts

/--
Every visit gives its commands and ends as it is to.
-/
theorem tracks_program (visit : Visit) : Tracked parseUuid app visit (visit.program parseUuid app) [] := by
  cases visit with
  | login => exact tracks_login
  | callback params => exact tracks_callback params
  | logout headers => exact tracks_logout headers
  | me headers => exact tracks_me headers
  | request parts => exact tracks_request parts
  | revokeAll userId => exact ⟨rfl, fun _ _ => trivial⟩
  | cleanup => exact ⟨rfl, fun _ _ => trivial⟩
  | restart => exact ⟨rfl, fun _ _ => trivial⟩

end Visit

/-
The same of the journals of runs.
-/

section Run

variable {ι : Type} [DecidableEq ι] {hashToken : String → String} {parseUuid : String → Option Uuid}
  {app : AuthAppState} {visits : ι → Visit} {turns : List (ι × AuthExternals)}

theorem accounts_authRun
    : Accounts (AuthCommand.answer hashToken) .new (fun i => (visits i).program parseUuid app)
        (authRun hashToken parseUuid app visits turns) :=
  accounts_run _ _ _

theorem answered_authRun
    : Answered (AuthCommand.answer hashToken) .new (authRun hashToken parseUuid app visits turns).journal :=
  accounts_authRun.answered

-- what holds of the part of the journal before an entry
theorem answered_before {before after : List (AuthEntry ι)}
    (hjournal : (authRun hashToken parseUuid app visits turns).journal = before ++ after)
    : Answered (AuthCommand.answer hashToken) .new before := by
  have hanswered := hjournal ▸ answered_authRun
  exact hanswered.of_append

theorem asks_of_journal {before after : List (AuthEntry ι)} {entry : AuthEntry ι}
    (hjournal : (authRun hashToken parseUuid app visits turns).journal = before ++ entry :: after)
    : (visits entry.client).Asks (log entry.client before) entry.command :=
  accounts_authRun.asks (visits entry.client).tracks_program hjournal

theorem endsIn_of_done {i : ι} {outcome : Outcome}
    (hdone : (authRun hashToken parseUuid app visits turns).programs i = .done outcome)
    : (visits i).EndsIn parseUuid app outcome (log i (authRun hashToken parseUuid app visits turns).journal) :=
  accounts_authRun.post (visits i).tracks_program hdone

end Run

end Identity
