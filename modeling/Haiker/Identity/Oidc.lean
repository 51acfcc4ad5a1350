import Haiker.Ids
import Haiker.Json.Basic

/-!
This module contains the exchange of an authorization code for the claims of an ID token. The answers of the
provider, the clocks, `jsonwebtoken` and the parsers of `serde_json` come in as functions.
-/

/--
`value.as_i64()`. What is beyond 64 bits is a floating point number.
-/
def Json.asI64? : Json → Option Int
  | .int n => if -9223372036854775808 ≤ n ∧ n ≤ 9223372036854775807 then some n else none
  | _ => none

namespace Identity

inductive AuthenticationError where
  | invalidSession
  | missingCredentials
  | expired
  | providerError (message : String)
  | invalidState
  | codeExchangeFailed (message : String)
  | persistenceError (message : String)
  deriving DecidableEq

structure OidcConfig where
  issuerUrl : String
  clientId : String
  clientSecret : String
  redirectUri : String

structure OidcClaims where
  subject : String
  email : Option String
  name : Option String
  deriving DecidableEq

/-
What is used of `jsonwebtoken`.
-/

inductive Algorithm where
  | hs256
  | hs384
  | hs512
  | es256
  | es384
  | rs256
  | rs384
  | rs512
  | ps256
  | ps384
  | ps512
  | edDSA
  deriving DecidableEq

-- `{:?}`
def Algorithm.debug : Algorithm → String
  | .hs256 => "HS256"
  | .hs384 => "HS384"
  | .hs512 => "HS512"
  | .es256 => "ES256"
  | .es384 => "ES384"
  | .rs256 => "RS256"
  | .rs384 => "RS384"
  | .rs512 => "RS512"
  | .ps256 => "PS256"
  | .ps384 => "PS384"
  | .ps512 => "PS512"
  | .edDSA => "EdDSA"

structure Header where
  alg : Algorithm
  kid : Option String

structure Validation where
  algorithms : List Algorithm
  validateExp : Bool
  validateAud : Bool
  requiredSpecClaims : List String
  iss : List String

structure TokenResponse where
  isSuccess : Bool
  status : String
  text : Except String String

structure Externals (Jwk DecodingKey : Type) where
  -- `chrono::Utc::now().timestamp()`, in seconds
  now : Int
  -- `Instant::now()`
  instant : Timestamp
  post : (url : String) → (form : List (String × String)) → Except String TokenResponse
  parseJson : String → Except String Json
  -- the text of the keys
  getKeys : (url : String) → Except String (Except String String)
  parseJwks : String → Except String (List Jwk)
  keyId : Jwk → Option String
  decodeHeader : (token : String) → Except String Header
  fromJwk : Jwk → Except String DecodingKey
  decode : (token : String) → DecodingKey → Validation → Except String Json

/-
The provider.
-/

def MAX_CLOCK_SKEW_SECS : Int := 300

-- one hour, in nanoseconds
def JWKS_CACHE_TTL : Int := 3600 * 1000000000

structure CachedJwks (Jwk : Type) where
  jwks : List Jwk
  fetchedAt : Timestamp

/--
The issuer has been given a slash at its end.
-/
structure Auth0OidcProvider where
  tokenEndpoint : String
  jwksUri : String
  issuer : String
  redirectUri : String
  clientId : String
  clientSecret : String
  slash : issuer.toList.getLast? = some '/'

namespace Auth0OidcProvider

def normalizedIssuer (issuerUrl : String) : String :=
  if issuerUrl.toList.getLast? = some '/' then issuerUrl else issuerUrl ++ "/"

theorem getLast?_normalizedIssuer (issuerUrl : String)
    : (normalizedIssuer issuerUrl).toList.getLast? = some '/' := by
  unfold normalizedIssuer
  split
  . next h => exact h
  . have hslash : "/".toList = ['/'] := rfl
    rw [String.toList_append, hslash, List.getLast?_concat]

-- the end points are the ones that have been discovered
def fromConfig (config : OidcConfig) (tokenEndpoint jwksUri : String) : Auth0OidcProvider where
  tokenEndpoint
  jwksUri
  issuer := normalizedIssuer config.issuerUrl
  redirectUri := config.redirectUri
  clientId := config.clientId
  clientSecret := config.clientSecret
  slash := getLast?_normalizedIssuer config.issuerUrl

variable {Jwk DecodingKey α : Type}

-- the state is the cache of the keys
abbrev OidcM (Jwk : Type) := EStateM AuthenticationError (Option (CachedJwks Jwk))

def failed (message : String) : OidcM Jwk α := throw (.codeExchangeFailed message)

-- `.map_err(|e| CodeExchangeFailed(format!("..: {e}")))?`
def orFail (context : String) (result : Except String α) : OidcM Jwk α :=
  match result with
  | .ok a => return a
  | .error e => failed (context ++ ": " ++ e)

variable (provider : Auth0OidcProvider) (externals : Externals Jwk DecodingKey)

def tokenForm (code codeVerifier : String) : List (String × String) :=
  [
    ("grant_type", "authorization_code"),
    ("code", code),
    ("redirect_uri", provider.redirectUri),
    ("client_id", provider.clientId),
    ("client_secret", provider.clientSecret),
    ("code_verifier", codeVerifier)
  ]

def exchangeCodeManual (code codeVerifier : String) : OidcM Jwk String := do
  let response ← orFail "token endpoint request failed"
    (externals.post provider.tokenEndpoint (provider.tokenForm code codeVerifier))
  if !response.isSuccess then
    failed ("token endpoint returned " ++ response.status)
  else
    let bodyText ← orFail "failed to read token response body" response.text
    let body ← orFail "failed to parse token response" (externals.parseJson bodyText)
    match (body.get? "id_token").bind Json.asStr? with
    | some idToken => return idToken
    | none => failed "no id_token in token response"

def fetchJwks : OidcM Jwk (List Jwk) := do
  let text ← orFail "failed to fetch JWKS" (externals.getKeys provider.jwksUri)
  let text ← orFail "failed to read JWKS response" text
  let jwks ← orFail "failed to parse JWKS" (externals.parseJwks text)
  set (some { jwks, fetchedAt := externals.instant : CachedJwks Jwk })
  return jwks

def getJwks (forceRefresh : Bool) : OidcM Jwk (List Jwk) := do
  match ← get with
  | some cached =>
    if !forceRefresh && decide (externals.instant - cached.fetchedAt < JWKS_CACHE_TTL) then
      return cached.jwks
    else
      fetchJwks provider externals
  | none => fetchJwks provider externals

-- a key that is not in the cache may be new
def findKey (kid : String) : OidcM Jwk Jwk := do
  let jwks ← getJwks provider externals false
  match jwks.find? fun jwk => externals.keyId jwk = some kid with
  | some jwk => return jwk
  | none =>
    let jwks ← getJwks provider externals true
    match jwks.find? fun jwk => externals.keyId jwk = some kid with
    | some jwk => return jwk
    | none => failed ("no matching key found in JWKS for kid '" ++ kid ++ "'")

-- the signature and the issuer, and nothing else
def validation : Validation where
  algorithms := [.rs256]
  validateExp := false
  validateAud := false
  requiredSpecClaims := []
  iss := [provider.issuer]

def verifyAndDecodeJwt (token : String) : OidcM Jwk Json := do
  let header ← orFail "failed to decode JWT header" (externals.decodeHeader token)
  if header.alg ≠ .rs256 then
    failed ("unsupported JWT algorithm: " ++ header.alg.debug ++ " (only RS256 is accepted)")
  else
    match header.kid with
    | none => failed "JWT header missing kid claim"
    | some kid =>
      let jwk ← findKey provider externals kid
      let decodingKey ← orFail "failed to build decoding key from JWK" (externals.fromJwk jwk)
      orFail "JWT signature verification failed" (externals.decode token decodingKey (validation provider))

/-
The checks of the claims, in their order.
-/

section Checks

variable (nonce : String) (now : Int) (claims : Json)

def claimStr? (name : String) : Option String := (claims.get? name).bind Json.asStr?

def claimI64? (name : String) : Option Int := (claims.get? name).bind Json.asI64?

def checkNonce : Except AuthenticationError Unit :=
  match claimStr? claims "nonce" with
  | none => .error (.codeExchangeFailed "ID token missing nonce claim")
  | some tokenNonce =>
    if tokenNonce ≠ nonce then
      .error (.codeExchangeFailed "ID token nonce does not match expected value")
    else
      .ok ()

def checkIssuer : Except AuthenticationError Unit :=
  let tokenIssuer := (claimStr? claims "iss").getD ""
  if tokenIssuer ≠ provider.issuer then
    .error (.codeExchangeFailed
      ("ID token issuer mismatch: got '" ++ tokenIssuer ++ "', expected '" ++ provider.issuer ++ "'"))
  else
    .ok ()

def validAudience : Bool :=
  match claims.get? "aud" with
  | some (.str aud) => aud = provider.clientId
  | some (.arr auds) => auds.any fun a => a.asStr? = some provider.clientId
  | _ => false

def checkAudience : Except AuthenticationError Unit :=
  if validAudience provider claims then
    .ok ()
  else
    .error (.codeExchangeFailed "ID token audience does not contain our client ID")

-- what cannot be read as an `i64` is passed over
def checkExpiry : Except AuthenticationError Unit :=
  match claimI64? claims "exp" with
  | some exp =>
    if exp < now then
      .error (.codeExchangeFailed "ID token has expired")
    else
      .ok ()
  | none => .ok ()

def checkIssuedAt : Except AuthenticationError Unit :=
  match claimI64? claims "iat" with
  | some iat =>
    if now + MAX_CLOCK_SKEW_SECS < iat then
      .error (.codeExchangeFailed ("ID token iat is too far in the future (iat=" ++ toString iat ++ ", now="
        ++ toString now ++ ", max_skew=" ++ toString MAX_CLOCK_SKEW_SECS ++ "s)"))
    else
      .ok ()
  | none => .ok ()

def readClaims : Except AuthenticationError OidcClaims :=
  match claimStr? claims "sub" with
  | none => .error (.codeExchangeFailed "ID token missing sub claim")
  | some subject => .ok { subject, email := claimStr? claims "email", name := claimStr? claims "name" }

def checkClaims : Except AuthenticationError OidcClaims := do
  checkNonce nonce claims
  checkIssuer provider claims
  checkAudience provider claims
  checkExpiry now claims
  checkIssuedAt now claims
  readClaims claims

end Checks

def exchangeCode (code nonce codeVerifier : String) : OidcM Jwk OidcClaims := do
  let idToken ← exchangeCodeManual provider externals code codeVerifier
  let claims ← verifyAndDecodeJwt provider externals idToken
  match checkClaims provider nonce externals.now claims with
  | .ok claims => return claims
  | .error e => throw e

end Auth0OidcProvider

end Identity
