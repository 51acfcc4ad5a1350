import Haiker.Concurrency.Journal
import Haiker.Identity.Sessions
import Haiker.Rust.Str

/-!
This module contains the handlers of the login flow and the extractor that authenticates requests, as programs
over the store of the login flows and the database. The request id of a rejection is added when the response is
built and is not part of it.
-/

open Rust

namespace Identity

structure Actor where
  userId : UserId
  deriving DecidableEq

/--
The texts of the headers that can be read as such, by name.
-/
abbrev HeaderMap := String → Option String

inductive HttpMethod where
  | get
  | head
  | post
  | put
  | patch
  | delete
  | options
  | connect
  | trace
  | extension (name : String)
  deriving DecidableEq

structure Parts where
  method : HttpMethod
  headers : HeaderMap

/--
The server does not start with a provider and the development mode at once.
-/
structure AuthAppState where
  oidcConfigured : Bool
  providerReady : Bool
  devAuthEnabled : Bool
  cookieSecure : Bool
  guarded : oidcConfigured = true → devAuthEnabled = false

namespace AuthAppState

-- without a redirect URI there is no provider
def startup (redirectUri : Option String) (providerReady devAuthEnabled : Bool) : Option AuthAppState :=
  if h : redirectUri.isSome = true ∧ devAuthEnabled = true then
    none
  else
    some {
      oidcConfigured := redirectUri.isSome
      providerReady
      devAuthEnabled
      cookieSecure := (redirectUri.map fun uri => "https://".toList.isPrefixOf uri.toList).getD true
      guarded := by simpa using h
    }

def hasOidcProvider (app : AuthAppState) : Bool := app.oidcConfigured && app.providerReady

end AuthAppState

/-
Cookies.
-/

def SESSION_COOKIE_NAME : String := "haiker_sid"

def CSRF_HEADER_NAME : String := "x-csrf-token"

-- seven days, in seconds
def SESSION_DURATION : Int := 7 * 24 * 3600

-- `strip_prefix(name)` and then `strip_prefix('=')`
def cookieValue? (name : String) (cookie : List Char) : Option (List Char) :=
  if (name.toList ++ ['=']).isPrefixOf cookie then some (cookie.drop (name.toList.length + 1)) else none

-- the first cookie of the name
def findCookie (name cookieHeader : String) : Option String :=
  ((cookieHeader.toList.splitOn ';').findSome? fun cookie => cookieValue? name (trimChars cookie)).map String.ofList

def extractCookieValue (headers : HeaderMap) (name : String) : Option String :=
  (headers "cookie").bind (findCookie name)

def extractSessionCookie (headers : HeaderMap) : Option String := extractCookieValue headers SESSION_COOKIE_NAME

section SetCookie

variable (app : AuthAppState)

def secureFlag : String := if app.cookieSecure then "; Secure" else ""

def sessionCookie (rawToken : String) : String :=
  SESSION_COOKIE_NAME ++ "=" ++ rawToken ++ "; HttpOnly" ++ secureFlag app ++ "; SameSite=Lax; Path=/; Max-Age="
    ++ toString SESSION_DURATION

def clearCookie : String :=
  SESSION_COOKIE_NAME ++ "=; HttpOnly" ++ secureFlag app ++ "; SameSite=Lax; Path=/; Max-Age=0"

end SetCookie

/-
Responses.
-/

structure AuthResponse where
  status : Nat
  body : Option Json
  setCookie : Option String

def problemDetail (problemType title : String) (status : Nat) (detail : String) : AuthResponse where
  status
  body := some (.obj [
    ("type", .str problemType),
    ("title", .str title),
    ("status", .ofNat status),
    ("detail", .str detail)
  ])
  setCookie := none

def serviceUnavailable : AuthResponse :=
  problemDetail "/problems/service-unavailable" "Service Unavailable" 503 "OIDC provider not configured"

def unauthorized (detail : String) : AuthResponse := problemDetail "/problems/unauthorized" "Unauthorized" 401 detail

def internalError (detail : String) : AuthResponse :=
  problemDetail "/problems/internal-error" "Internal Server Error" 500 detail

def unauthorizedWithCode (detail : String) : AuthResponse where
  status := 401
  body := some (.obj [
    ("type", .str "/problems/unauthorized"),
    ("title", .str "Unauthorized"),
    ("status", .ofNat 401),
    ("code", .str "UNAUTHORIZED"),
    ("detail", .str detail)
  ])
  setCookie := none

def csrfMismatch : AuthResponse where
  status := 403
  body := some (.obj [("error", .obj [
    ("code", .str "CSRF_MISMATCH"),
    ("message", .str "CSRF token missing or invalid")
  ])])
  setCookie := none

def noContent : AuthResponse where
  status := 204
  body := none
  setCookie := none

inductive AuthSessionError where
  | missingCredentials
  | invalidSession
  | csrfMismatch
  deriving DecidableEq

-- without its request id
def AuthSessionError.toResponse (error : AuthSessionError) : AuthResponse :=
  let (status, code, message, problemType, title) : Nat × String × String × String × String :=
    match error with
    | .missingCredentials =>
      (401, "UNAUTHORIZED", "missing session credentials", "/problems/unauthorized", "Unauthorized")
    | .invalidSession =>
      (401, "UNAUTHORIZED", "invalid or expired session", "/problems/unauthorized", "Unauthorized")
    | .csrfMismatch =>
      (403, "CSRF_MISMATCH", "CSRF token missing or invalid", "/problems/csrf-mismatch", "CSRF Mismatch")
  {
    status
    body := some (.obj [
      ("type", .str problemType),
      ("title", .str title),
      ("status", .ofNat status),
      ("code", .str code),
      ("detail", .str message)
    ])
    setCookie := none
  }

/-
The handlers.
-/

abbrev AuthM := Program AuthCommand.Reply

structure CallbackParams where
  code : Option String
  state : Option String
  error : Option String
  errorDescription : Option String

section Handlers

variable (app : AuthAppState)

def postLogin : AuthM AuthResponse := do
  if !app.hasOidcProvider then
    return serviceUnavailable
  else
    match ← .call AuthCommand.authorizationUrl with
    | .ok authorization =>
      .call (AuthCommand.storeState authorization.state authorization.nonce authorization.codeVerifier)
      return {
        status := 200
        body := some (.obj [("authorization_url", .str authorization.url)])
        setCookie := none
      }
    | .error _ => return internalError "Failed to generate authorization URL"

def callbackResponse (rawToken csrfToken : String) (userId : UserId) : AuthResponse where
  status := 200
  body := some (.obj [("csrf_token", .str csrfToken), ("user_id", .str userId.val.hyphenated)])
  setCookie := some (sessionCookie app rawToken)

-- the part of `get_callback` that knows who has logged in
def startSession (claims : OidcClaims) : AuthM AuthResponse := do
  match ← .call (AuthCommand.findOrCreateByExternalId claims.subject claims.email claims.name) with
  | .error _ => return internalError "Failed to create user account"
  | .ok userId =>
    match ← .call (AuthCommand.createSession userId.val SESSION_DURATION) with
    | .error _ => return internalError "Failed to create session"
    | .ok (rawToken, csrfToken) => return callbackResponse app rawToken csrfToken userId

-- the part of `get_callback` with the parameters at hand
def completeLogin (code state : String) : AuthM AuthResponse := do
  match ← .call (AuthCommand.consumeState state) with
  | none => return unauthorized "Invalid or expired state parameter"
  | some (nonce, codeVerifier) =>
    match ← .call (AuthCommand.exchangeCode code nonce codeVerifier) with
    | .error _ => return unauthorized "Failed to exchange authorization code"
    | .ok claims => startSession app claims

def getCallback (params : CallbackParams) : AuthM AuthResponse :=
  match params.error with
  | some _ => return unauthorized ("Authentication failed: " ++ params.errorDescription.getD "unknown error")
  | none =>
    if !app.hasOidcProvider then
      return serviceUnavailable
    else
      match params.code with
      | none => return problemDetail "/problems/bad-request" "Bad Request" 400 "Missing authorization code"
      | some code =>
        match params.state with
        | none => return unauthorized "Missing state parameter"
        | some state => completeLogin app code state

-- what answers a logout that has not been rejected
def loggedOut : AuthResponse where
  status := 204
  body := none
  setCookie := some (clearCookie app)

def postLogout (headers : HeaderMap) : AuthM AuthResponse :=
  match extractSessionCookie headers with
  | none => return noContent
  | some rawToken => do
    match ← .call (AuthCommand.validateSession rawToken) with
    | .ok (some info) =>
      if headers CSRF_HEADER_NAME = some info.csrfToken then
        -- that the session could not be revoked is logged and nothing else
        let _ ← .call (AuthCommand.revokeSession info.sessionId)
        return loggedOut app
      else
        return csrfMismatch
    | _ => return loggedOut app

def getMe (headers : HeaderMap) : AuthM AuthResponse :=
  match extractSessionCookie headers with
  | none => return unauthorizedWithCode "missing session credentials"
  | some rawToken => do
    match ← .call (AuthCommand.validateSession rawToken) with
    | .ok (some info) =>
      return {
        status := 200
        body := some (.obj [("user_id", .str info.userId.hyphenated), ("csrf_token", .str info.csrfToken)])
        setCookie := none
      }
    | _ => return unauthorizedWithCode "invalid or expired session"

end Handlers

namespace AuthSession

-- what `Uuid::parse_str` reads
variable (parseUuid : String → Option Uuid) (app : AuthAppState) (parts : Parts)

def isStateChangingMethod : HttpMethod → Bool
  | .post | .put | .patch | .delete => true
  | .get | .head | .options | .connect | .trace | .extension _ => false

def tryDevBearerAuth : Option Actor := do
  let authHeader ← parts.headers "authorization"
  let token ← if "Bearer ".toList.isPrefixOf authHeader.toList then
    some (String.ofList (authHeader.toList.drop "Bearer ".toList.length))
  else
    none
  let userId ← parseUuid token
  return { userId := ⟨userId⟩ }

-- a session has been found
def checkCsrf (info : SessionInfo) : Except AuthSessionError Actor :=
  if isStateChangingMethod parts.method ∧ parts.headers CSRF_HEADER_NAME ≠ some info.csrfToken then
    .error .csrfMismatch
  else
    .ok { userId := ⟨info.userId⟩ }

def fromCookie : AuthM (Except AuthSessionError Actor) :=
  match extractCookieValue parts.headers SESSION_COOKIE_NAME with
  | none => return .error .missingCredentials
  | some rawToken => do
    match ← .call (AuthCommand.validateSession rawToken) with
    | .ok (some info) => return checkCsrf parts info
    | _ => return .error .invalidSession

def fromRequestParts : AuthM (Except AuthSessionError Actor) :=
  if app.devAuthEnabled then
    match tryDevBearerAuth parseUuid parts with
    | some actor => return .ok actor
    | none => fromCookie parts
  else
    fromCookie parts

end AuthSession

/-
Everybody who uses the store and the tables.
-/

inductive Visit where
  | login
  | callback (params : CallbackParams)
  | logout (headers : HeaderMap)
  | me (headers : HeaderMap)
  | request (parts : Parts)
  | revokeAll (userId : Uuid)
  | cleanup
  | restart

inductive Outcome where
  | response (response : AuthResponse)
  | authenticated (result : Except AuthSessionError Actor)
  | maintained

def Visit.program (parseUuid : String → Option Uuid) (app : AuthAppState) : Visit → AuthM Outcome
  | .login => return .response (← postLogin app)
  | .callback params => return .response (← getCallback app params)
  | .logout headers => return .response (← postLogout app headers)
  | .me headers => return .response (← getMe headers)
  | .request parts => return .authenticated (← AuthSession.fromRequestParts parseUuid app parts)
  | .revokeAll userId => do
    let _ ← .call (AuthCommand.revokeAllUserSessions userId)
    return .maintained
  | .cleanup => do
    let _ ← .call AuthCommand.cleanupExpired
    return .maintained
  | .restart => do
    .call AuthCommand.restart
    return .maintained

/--
The visits of any number of clients, in any order of their accesses.
-/
def authRun {ι : Type} [DecidableEq ι] (hashToken : String → String) (parseUuid : String → Option Uuid)
    (app : AuthAppState) (visits : ι → Visit) (turns : List (ι × AuthExternals))
    : Journal.System AuthState ι AuthExternals AuthCommand.Reply Outcome :=
  Journal.run (AuthCommand.answer hashToken)
    (Journal.start .new fun i => (visits i).program parseUuid app) turns

/-
Two logins of one person, a request with each, and a logout.
-/

section Sample

def sampleAuthApp : AuthAppState where
  oidcConfigured := true
  providerReady := true
  devAuthEnabled := false
  cookieSecure := false
  guarded _ := rfl

def sampleClaims : OidcClaims where
  subject := "auth0|1"
  email := some "hiker@example.com"
  name := none

def sampleText (draw : Nat) : String := (⟨draw⟩ : Uuid).hyphenated

def sampleAuthExternals (draw : Nat) : AuthExternals where
  instant := draw
  utcNow := draw
  dbNow := draw
  outage := none
  violation := "violation"
  newUserId := ⟨draw⟩
  newSessionId := ⟨draw⟩
  rawToken := ⟨draw⟩
  csrfToken := ⟨draw⟩
  authorizationUrl := .ok ⟨"https://provider.example/authorize", sampleText draw, "nonce", "verifier"⟩
  exchangeCode _ _ _ := .ok sampleClaims

def sampleSignedIn (draw : Nat) : HeaderMap := fun name =>
  if name = "cookie" then
    some ("haiker_sid=" ++ sampleText draw)
  else if name = CSRF_HEADER_NAME then
    some (sampleText draw)
  else
    none

def sampleVisits : Nat → Visit
  | 0 => .login
  | 1 => .callback ⟨some "code", some (sampleText 0), none, none⟩
  | 2 => .request ⟨.post, sampleSignedIn 1⟩
  | 3 => .logout (sampleSignedIn 1)
  | 4 => .login
  | 5 => .callback ⟨some "code", some (sampleText 4), none, none⟩
  | _ => .request ⟨.post, sampleSignedIn 5⟩

def sampleRun : Journal.System AuthState Nat AuthExternals AuthCommand.Reply Outcome :=
  authRun id (fun _ => none) sampleAuthApp sampleVisits
    ([0, 0, 1, 1, 1, 1, 2, 4, 4, 5, 5, 5, 5, 6, 3, 3].map fun i => (i, sampleAuthExternals i))

end Sample

end Identity
