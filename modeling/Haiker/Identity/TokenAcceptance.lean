import Haiker.Identity.Oidc

/-!
This module contains which ID tokens are accepted. Times that cannot be read as an `i64` are passed over, so a
token without an expiry is accepted as well.
-/

namespace Identity

namespace Auth0OidcProvider

/--
The claims say who has logged in, to this client and at this provider.
-/
structure Identified (provider : Auth0OidcProvider) (nonce : String) (claims : Json) : Prop where
  nonce : claims.get? "nonce" = some (.str nonce)
  issuer : claims.get? "iss" = some (.str provider.issuer)
  audience : claims.get? "aud" = some (.str provider.clientId)
    ∨ ∃ auds, claims.get? "aud" = some (.arr auds) ∧ .str provider.clientId ∈ auds
  subject : ∃ subject, claims.get? "sub" = some (.str subject)

def asNumber? : Json → Option ℚ
  | .int n => some n
  | .float q => some q
  | _ => none

def claimNumber? (claims : Json) (name : String) : Option ℚ := (claims.get? name).bind asNumber?

/--
What is expected of a token that is accepted.
-/
structure Acceptable (provider : Auth0OidcProvider) (nonce : String) (now : Int) (claims : Json) : Prop
    extends Identified provider nonce claims where
  expiry : ∃ exp, claimNumber? claims "exp" = some exp ∧ now ≤ exp
  issuedAt : claims.get? "iat" = none
    ∨ ∃ iat, claimNumber? claims "iat" = some iat ∧ iat ≤ now + MAX_CLOCK_SKEW_SECS

/--
No time that is an `i64` is wrong, but one is wrong that is none: an expiry that is missing, no number or a
number that has passed, or a time of issue that is no number or too far in the future.
-/
structure Overlooks (provider : Auth0OidcProvider) (nonce : String) (now : Int) (claims : Json) : Prop
    extends Identified provider nonce claims where
  exp_le : ∀ exp, claimI64? claims "exp" = some exp → now ≤ exp
  iat_le : ∀ iat, claimI64? claims "iat" = some iat → iat ≤ now + MAX_CLOCK_SKEW_SECS
  overlooked : (claimI64? claims "exp" = none ∧ ∀ exp, claimNumber? claims "exp" = some exp → exp < now)
    ∨ claims.get? "iat" ≠ none ∧ claimI64? claims "iat" = none
      ∧ ∀ iat, claimNumber? claims "iat" = some iat → now + MAX_CLOCK_SKEW_SECS < iat

section Checks

variable {provider : Auth0OidcProvider} {nonce : String} {now : Int} {claims : Json}

theorem claimStr?_eq_some_iff {name value : String}
    : claimStr? claims name = some value ↔ claims.get? name = some (.str value) := by
  unfold claimStr?
  cases claims.get? name with
  | none => simp
  | some j =>
    cases j with
    | str text => simp [Json.asStr?]
    | null | bool | int | float | arr | obj => simp [Json.asStr?]

theorem claimNumber?_of_i64 {name : String} {n : Int} (h : claimI64? claims name = some n)
    : claimNumber? claims name = some (n : ℚ) := by
  unfold claimI64? at h
  unfold claimNumber?
  cases hget : claims.get? name with
  | none =>
    rw [hget] at h
    cases h
  | some j =>
    rw [hget] at h
    cases j with
    | int m =>
      have hm : (if -9223372036854775808 ≤ m ∧ m ≤ 9223372036854775807 then some m else none) = some n := h
      split at hm
      . obtain rfl := Option.some.inj hm
        rfl
      . cases hm
    | null | bool | float | str | arr | obj => cases h

theorem checkNonce_eq_ok_iff : checkNonce nonce claims = .ok () ↔ claims.get? "nonce" = some (.str nonce) := by
  rw [← claimStr?_eq_some_iff]
  unfold checkNonce
  cases claimStr? claims "nonce" with
  | none => simp
  | some tokenNonce => simp

-- a missing issuer counts as the empty one, which is no provider's
theorem checkIssuer_eq_ok_iff
    : checkIssuer provider claims = .ok () ↔ claims.get? "iss" = some (.str provider.issuer) := by
  have hne : "" ≠ provider.issuer := by
    intro hempty
    have hslash := provider.slash
    rw [← hempty] at hslash
    cases hslash
  rw [← claimStr?_eq_some_iff]
  unfold checkIssuer
  cases claimStr? claims "iss" with
  | none => simp [hne]
  | some tokenIssuer => simp

theorem asStr?_eq_some_iff {j : Json} {text : String} : j.asStr? = some text ↔ j = .str text := by
  cases j with
  | str value => simp [Json.asStr?]
  | null | bool | int | float | arr | obj => simp [Json.asStr?]

theorem checkAudience_eq_ok_iff
    : checkAudience provider claims = .ok ()
        ↔ claims.get? "aud" = some (.str provider.clientId)
          ∨ ∃ auds, claims.get? "aud" = some (.arr auds) ∧ .str provider.clientId ∈ auds := by
  unfold checkAudience validAudience
  cases claims.get? "aud" with
  | none => simp
  | some j =>
    cases j with
    | str aud => simp
    | arr auds =>
      simp [asStr?_eq_some_iff]
    | null | bool | int | float | obj => simp

theorem checkExpiry_eq_ok_iff
    : checkExpiry now claims = .ok () ↔ ∀ exp, claimI64? claims "exp" = some exp → now ≤ exp := by
  unfold checkExpiry
  cases claimI64? claims "exp" with
  | none => simp
  | some exp => simp

theorem checkIssuedAt_eq_ok_iff
    : checkIssuedAt now claims = .ok ()
        ↔ ∀ iat, claimI64? claims "iat" = some iat → iat ≤ now + MAX_CLOCK_SKEW_SECS := by
  unfold checkIssuedAt
  cases claimI64? claims "iat" with
  | none => simp
  | some iat => simp

theorem readClaims_isOk_iff
    : (∃ result, readClaims claims = .ok result) ↔ ∃ sub, claims.get? "sub" = some (.str sub) := by
  simp only [← claimStr?_eq_some_iff]
  unfold readClaims
  cases claimStr? claims "sub" with
  | none => simp
  | some subject => simp

theorem bind_eq_ok_iff {ε β : Type} {check : Except ε Unit} {rest : Unit → Except ε β} {b : β}
    : (check >>= rest) = .ok b ↔ check = .ok () ∧ rest () = .ok b := by
  cases check with
  | ok _ => exact ⟨fun h => ⟨rfl, h⟩, And.right⟩
  | error e =>
    refine iff_of_false ?_ ?_
    . intro h
      cases h
    . rintro ⟨h, _⟩
      cases h

/--
What the code checks.
-/
theorem checkClaims_isOk_iff
    : (∃ result, checkClaims provider nonce now claims = .ok result)
        ↔ Identified provider nonce claims ∧ (∀ exp, claimI64? claims "exp" = some exp → now ≤ exp)
          ∧ ∀ iat, claimI64? claims "iat" = some iat → iat ≤ now + MAX_CLOCK_SKEW_SECS := by
  unfold checkClaims
  simp only [bind_eq_ok_iff, checkNonce_eq_ok_iff, checkIssuer_eq_ok_iff, checkAudience_eq_ok_iff,
    checkExpiry_eq_ok_iff, checkIssuedAt_eq_ok_iff]
  constructor
  . rintro ⟨result, hnonce, hissuer, haudience, hexp, hiat, hclaims⟩
    exact ⟨⟨hnonce, hissuer, haudience, readClaims_isOk_iff.mp ⟨result, hclaims⟩⟩, hexp, hiat⟩
  . rintro ⟨hidentified, hexp, hiat⟩
    obtain ⟨result, hclaims⟩ := readClaims_isOk_iff.mpr hidentified.subject
    exact ⟨result, hidentified.nonce, hidentified.issuer, hidentified.audience, hexp, hiat, hclaims⟩

theorem acceptable_iff
    : Acceptable provider nonce now claims
        ↔ Identified provider nonce claims ∧ (∃ exp, claimNumber? claims "exp" = some exp ∧ now ≤ exp)
          ∧ (claims.get? "iat" = none
            ∨ ∃ iat, claimNumber? claims "iat" = some iat ∧ iat ≤ now + MAX_CLOCK_SKEW_SECS) := by
  constructor
  . intro h
    exact ⟨h.toIdentified, h.expiry, h.issuedAt⟩
  . rintro ⟨hidentified, hexp, hiat⟩
    exact ⟨hidentified, hexp, hiat⟩

theorem claimI64?_of_get?_none {name : String} (h : claims.get? name = none) : claimI64? claims name = none := by
  rw [claimI64?, h]
  rfl

-- what is acceptable is accepted
theorem Acceptable.checked (h : Acceptable provider nonce now claims)
    : ∃ result, checkClaims provider nonce now claims = .ok result := by
  obtain ⟨exp, hexp, hle⟩ := h.expiry
  rw [checkClaims_isOk_iff]
  refine ⟨h.toIdentified, ?_, ?_⟩
  . intro n hn
    rw [claimNumber?_of_i64 hn] at hexp
    obtain rfl := Option.some.inj hexp
    exact_mod_cast hle
  . intro n hn
    rcases h.issuedAt with hnone | ⟨iat, hiat, hle⟩
    . rw [claimI64?_of_get?_none hnone] at hn
      cases hn
    . rw [claimNumber?_of_i64 hn] at hiat
      obtain rfl := Option.some.inj hiat
      exact_mod_cast hle

/--
Tokens are judged right as long as no wrong time is overlooked.
-/
theorem checkClaims_iff_acceptable
    : ((∃ result, checkClaims provider nonce now claims = .ok result) ↔ Acceptable provider nonce now claims)
        ↔ ¬Overlooks provider nonce now claims := by
  constructor
  . intro hiff hoverlooks
    have haccepted := hiff.mp
      (checkClaims_isOk_iff.mpr ⟨hoverlooks.toIdentified, hoverlooks.exp_le, hoverlooks.iat_le⟩)
    rcases hoverlooks.overlooked with ⟨_, hexp⟩ | ⟨hpresent, _, hiat⟩
    . obtain ⟨exp, hnumber, hle⟩ := haccepted.expiry
      exact absurd hle (not_le.mpr (hexp exp hnumber))
    . rcases haccepted.issuedAt with hnone | ⟨iat, hnumber, hle⟩
      . exact hpresent hnone
      . exact absurd hle (not_le.mpr (hiat iat hnumber))
  . intro hnot
    refine ⟨?_, Acceptable.checked⟩
    intro hchecked
    obtain ⟨hidentified, hexp, hiat⟩ := checkClaims_isOk_iff.mp hchecked
    rw [acceptable_iff]
    refine ⟨hidentified, ?_, ?_⟩
    . cases hread : claimI64? claims "exp" with
      | some exp => exact ⟨exp, claimNumber?_of_i64 hread, by exact_mod_cast hexp exp hread⟩
      | none =>
        by_contra hnone
        apply hnot
        refine ⟨hidentified, hexp, hiat, .inl ⟨hread, ?_⟩⟩
        intro exp hnumber
        by_contra hle
        exact hnone ⟨exp, hnumber, not_lt.mp hle⟩
    . cases hread : claimI64? claims "iat" with
      | some iat => exact .inr ⟨iat, claimNumber?_of_i64 hread, by exact_mod_cast hiat iat hread⟩
      | none =>
        by_contra hnone
        rw [not_or] at hnone
        apply hnot
        refine ⟨hidentified, hexp, hiat, .inr ⟨hnone.1, hread, ?_⟩⟩
        intro iat hnumber
        by_contra hle
        exact hnone.2 ⟨iat, hnumber, not_lt.mp hle⟩

end Checks

/-
The exchange of a code.
-/

section Exchange

variable {Jwk DecodingKey α : Type}

/--
The provider has answered the code with a token.
-/
structure Answers (provider : Auth0OidcProvider) (externals : Externals Jwk DecodingKey)
    (code codeVerifier idToken : String) (response : TokenResponse) (body : Json) : Prop where
  post : externals.post provider.tokenEndpoint (provider.tokenForm code codeVerifier) = .ok response
  success : response.isSuccess = true
  parsed : ∃ text, response.text = .ok text ∧ externals.parseJson text = .ok body
  idToken : body.get? "id_token" = some (.str idToken)

/--
The key of the provider that has this id. It is in the cache, or the provider has published it since.
-/
inductive KeyOf (provider : Auth0OidcProvider) (externals : Externals Jwk DecodingKey)
    (cache : Option (CachedJwks Jwk)) (kid : String) (jwk : Jwk) : Prop
  | cached (keys : CachedJwks Jwk) (hcache : cache = some keys)
      (hfresh : externals.instant - keys.fetchedAt < JWKS_CACHE_TTL)
      (hfind : (keys.jwks.find? fun jwk => externals.keyId jwk = some kid) = some jwk)
  | published (text : String) (jwks : List Jwk)
      (hmissing : ∀ keys, cache = some keys → externals.instant - keys.fetchedAt < JWKS_CACHE_TTL
        → (keys.jwks.find? fun jwk => externals.keyId jwk = some kid) = none)
      (hkeys : externals.getKeys provider.jwksUri = .ok (.ok text)) (hjwks : externals.parseJwks text = .ok jwks)
      (hfind : (jwks.find? fun jwk => externals.keyId jwk = some kid) = some jwk)

/--
The token is signed by a key of the provider and holds these claims. Of the claims the library looks at the
issuer only, and it lets a token pass that has none.
-/
structure Signed (provider : Auth0OidcProvider) (externals : Externals Jwk DecodingKey)
    (cache : Option (CachedJwks Jwk)) (idToken kid : String) (jwk : Jwk) (key : DecodingKey) (claims : Json)
    : Prop where
  header : externals.decodeHeader idToken = .ok { alg := .rs256, kid := some kid }
  published : KeyOf provider externals cache kid jwk
  decodingKey : externals.fromJwk jwk = .ok key
  decode : externals.decode idToken key (validation provider) = .ok claims
    ∨ (∃ e, externals.decode idToken key (validation provider) = .error e)
      ∧ claims.get? "iss" ≠ some (.str provider.issuer)

variable {provider : Auth0OidcProvider} {externals : Externals Jwk DecodingKey} {cache : Option (CachedJwks Jwk)}
variable {code codeVerifier idToken kid : String} {response : TokenResponse} {body claims : Json}
variable {jwk : Jwk} {key : DecodingKey}

@[simp]
theorem orFail_ok {context : String} {a : α} : (orFail context (.ok a) : OidcM Jwk α) = pure a := rfl

@[simp]
theorem run_throw (e : AuthenticationError) (cache : Option (CachedJwks Jwk))
    : (throw e : OidcM Jwk α).run cache = .error e cache := rfl

theorem Answers.run (h : Answers provider externals code codeVerifier idToken response body)
    : (exchangeCodeManual provider externals code codeVerifier).run cache = .ok idToken cache := by
  obtain ⟨text, htext, hparsed⟩ := h.parsed
  simp [exchangeCodeManual, h.post, h.success, htext, hparsed, h.idToken, Json.asStr?]

theorem run_fetchJwks (cache : Option (CachedJwks Jwk)) {text : String} {jwks : List Jwk}
    (hkeys : externals.getKeys provider.jwksUri = .ok (.ok text)) (hjwks : externals.parseJwks text = .ok jwks)
    : (fetchJwks provider externals).run cache = .ok jwks (some { jwks, fetchedAt := externals.instant }) := by
  simp only [fetchJwks, hkeys, hjwks, orFail_ok, pure_bind]
  rfl

theorem run_getJwks_of_fresh {keys : CachedJwks Jwk} (hfresh : externals.instant - keys.fetchedAt < JWKS_CACHE_TTL)
    : (getJwks provider externals false).run (some keys) = .ok keys.jwks (some keys) := by
  simp [getJwks, hfresh]

theorem run_getJwks_of_fetched (cache : Option (CachedJwks Jwk)) (forceRefresh : Bool) {text : String}
    {jwks : List Jwk}
    (hstale : ∀ keys, cache = some keys →
      forceRefresh = true ∨ ¬externals.instant - keys.fetchedAt < JWKS_CACHE_TTL)
    (hkeys : externals.getKeys provider.jwksUri = .ok (.ok text)) (hjwks : externals.parseJwks text = .ok jwks)
    : (getJwks provider externals forceRefresh).run cache
        = .ok jwks (some { jwks, fetchedAt := externals.instant }) := by
  have hfetch := run_fetchJwks cache hkeys hjwks
  cases cache with
  | none => simpa [getJwks] using hfetch
  | some keys =>
    rcases hstale keys rfl with hforced | hold
    . simpa [getJwks, hforced] using hfetch
    . simpa [getJwks, hold] using hfetch

/--
The key is found, also if it is newer than the cache.
-/
theorem KeyOf.run (h : KeyOf provider externals cache kid jwk)
    : ∃ cache', (findKey provider externals kid).run cache = .ok jwk cache' := by
  cases h with
  | cached keys hcache hfresh hfind =>
    rw [hcache]
    exact ⟨some keys, by simp [findKey, run_getJwks_of_fresh hfresh, hfind]⟩
  | published text jwks hmissing hkeys hjwks hfind =>
    by_cases hfresh : ∃ keys, cache = some keys ∧ externals.instant - keys.fetchedAt < JWKS_CACHE_TTL
    . obtain ⟨keys, rfl, hfresh⟩ := hfresh
      refine ⟨some { jwks, fetchedAt := externals.instant }, ?_⟩
      have hrefreshed := run_getJwks_of_fetched (some keys) true (fun _ _ => .inl rfl) hkeys hjwks
      simp [findKey, run_getJwks_of_fresh hfresh, hmissing keys rfl hfresh, hrefreshed, hfind]
    . refine ⟨some { jwks, fetchedAt := externals.instant }, ?_⟩
      have hfetched := run_getJwks_of_fetched cache false
        (fun keys hkeys => .inr fun hnew => hfresh ⟨keys, hkeys, hnew⟩) hkeys hjwks
      simp [findKey, hfetched, hfind]

theorem Signed.run_verifyAndDecodeJwt (h : Signed provider externals cache idToken kid jwk key claims)
    : ∃ cache', (verifyAndDecodeJwt provider externals idToken).run cache
        = (orFail "JWT signature verification failed"
          (externals.decode idToken key (validation provider))).run cache' := by
  obtain ⟨cache', hfind⟩ := h.published.run
  exact ⟨cache', by simp [verifyAndDecodeJwt, h.header, hfind, h.decodingKey]⟩

-- whatever the library says of the issuer is said by the code again
theorem exchangeCode_isOk_iff {nonce : String}
    (hanswers : Answers provider externals code codeVerifier idToken response body)
    (hsigned : Signed provider externals cache idToken kid jwk key claims)
    : (∃ result cache', (exchangeCode provider externals code nonce codeVerifier).run cache = .ok result cache')
        ↔ ∃ result, checkClaims provider nonce externals.now claims = .ok result := by
  obtain ⟨cache', hverify⟩ := hsigned.run_verifyAndDecodeJwt
  rcases hsigned.decode with hdecode | ⟨⟨e, hdecode⟩, hissuer⟩
  . cases hchecks : checkClaims provider nonce externals.now claims with
    | ok result => simp [exchangeCode, hanswers.run, hverify, hdecode, hchecks]
    | error e => simp [exchangeCode, hanswers.run, hverify, hdecode, hchecks]
  . refine iff_of_false ?_ ?_
    . simp [exchangeCode, hanswers.run, hverify, hdecode, orFail, failed]
    . intro hchecked
      exact hissuer (checkClaims_isOk_iff.mp hchecked).1.issuer

/--
A signed token is accepted exactly if it should be, as long as no wrong time is overlooked in it.
-/
theorem exchangeCode_iff_acceptable {nonce : String}
    (hanswers : Answers provider externals code codeVerifier idToken response body)
    (hsigned : Signed provider externals cache idToken kid jwk key claims)
    : ((∃ result cache', (exchangeCode provider externals code nonce codeVerifier).run cache = .ok result cache')
          ↔ Acceptable provider nonce externals.now claims)
        ↔ ¬Overlooks provider nonce externals.now claims := by
  rw [exchangeCode_isOk_iff hanswers hsigned]
  exact checkClaims_iff_acceptable

end Exchange

/-
A provider whose tokens hold the given claims.
-/

def login : Auth0OidcProvider :=
  let config := {
    issuerUrl := "https://login.example"
    clientId := "haiker"
    clientSecret := "secret"
    redirectUri := "https://haiker.example/auth/callback"
  }
  fromConfig config "https://login.example/oauth/token" "https://login.example/.well-known/jwks.json"

def loginResponse : TokenResponse where
  isSuccess := true
  status := "200 OK"
  text := .ok "\x7b\"id_token\":\"header.claims.signature\"\x7d"

def loginBody : Json := .obj [("id_token", .str "header.claims.signature")]

-- a key is its own id
def signing (claims : Json) : Externals String String where
  now := 1750000000
  instant := 0
  post _ _ := .ok loginResponse
  parseJson _ := .ok loginBody
  getKeys _ := .ok (.ok "\x7b\"keys\":[\x7b\"kid\":\"login\"\x7d]\x7d")
  parseJwks _ := .ok ["login"]
  keyId := some
  decodeHeader _ := .ok { alg := .rs256, kid := some "login" }
  fromJwk := .ok
  decode _ _ _ := .ok claims

theorem answers_signing (claims : Json)
    : Answers login (signing claims) "code" "verifier" "header.claims.signature" loginResponse loginBody where
  post := rfl
  success := rfl
  parsed := ⟨_, rfl, rfl⟩
  idToken := rfl

theorem signed_signing (claims : Json)
    : Signed login (signing claims) none "header.claims.signature" "login" "login" "login" claims where
  header := rfl
  published := .published _ ["login"] (by rintro _ ⟨⟩) rfl rfl rfl
  decodingKey := rfl
  decode := .inl rfl

def dated : Json :=
  .obj [
    ("nonce", .str "nonce"),
    ("iss", .str "https://login.example/"),
    ("aud", .arr [.str "haiker"]),
    ("exp", .int 1750036000),
    ("iat", .int 1750000000),
    ("sub", .str "hiker")
  ]

theorem exchangeCode_iff_acceptable_dated
    : ((∃ result cache', (exchangeCode login (signing dated) "code" "nonce" "verifier").run none
            = .ok result cache')
          ↔ Acceptable login "nonce" 1750000000 dated)
        ↔ ¬Overlooks login "nonce" 1750000000 dated :=
  exchangeCode_iff_acceptable (answers_signing dated) (signed_signing dated)

def timeless : Json :=
  .obj [
    ("nonce", .str "nonce"),
    ("iss", .str "https://login.example/"),
    ("aud", .str "haiker"),
    ("sub", .str "hiker")
  ]

/--
A token that never expires.
-/
theorem exchangeCode_accepts_timeless
    : Signed login (signing timeless) none "header.claims.signature" "login" "login" "login" timeless
      ∧ ¬((∃ result cache', (exchangeCode login (signing timeless) "code" "nonce" "verifier").run none
            = .ok result cache')
          ↔ Acceptable login "nonce" 1750000000 timeless) := by
  refine ⟨signed_signing timeless, ?_⟩
  intro hiff
  have haccepted : Acceptable login "nonce" 1750000000 timeless := by
    apply hiff.mp
    rw [exchangeCode_isOk_iff (answers_signing timeless) (signed_signing timeless)]
    exact ⟨{ subject := "hiker", email := none, name := none }, rfl⟩
  obtain ⟨exp, hexp, _⟩ := haccepted.expiry
  cases hexp

end Auth0OidcProvider

end Identity
