import Haiker.Identity.LoginChain

/-!
This module contains the cookies that browsers send, what is read of them, and that whoever has logged in is let
in.
-/

open Rust
open Journal

namespace Identity

/--
A cookie as it stands between the semicolons of a `Cookie` header.
-/
structure Cookie where
  name : String
  value : String
  equalsSign : '=' ∉ name.toList
  nameSemicolon : ';' ∉ name.toList
  valueSemicolon : ';' ∉ value.toList
  nameBlank : ∀ c ∈ name.toList.head?, isWhitespace c = false
  valueBlank : ∀ c ∈ value.toList.getLast?, isWhitespace c = false

namespace Cookie

def pair (cookie : Cookie) : List Char := cookie.name.toList ++ '=' :: cookie.value.toList

def header (jar : List Cookie) : String := String.ofList ([';', ' '].intercalate (jar.map pair))

theorem not_mem_pair (cookie : Cookie) : ';' ∉ cookie.pair := by
  have hne : ';' ≠ '=' := by decide
  simp [pair, cookie.nameSemicolon, cookie.valueSemicolon, hne]

theorem trimChars_pair (cookie : Cookie) : trimChars cookie.pair = cookie.pair := by
  have hequals : isWhitespace '=' = false := by decide
  rw [trimChars_eq_self_iff, pair, List.head?_append, List.getLast?_append]
  constructor
  . intro c hc
    cases hhead : cookie.name.toList.head? with
    | some first =>
      rw [hhead] at hc
      cases hc
      exact cookie.nameBlank c hhead
    | none =>
      rw [hhead] at hc
      cases hc
      exact hequals
  . intro c hc
    cases hvalue : cookie.value.toList with
    | nil =>
      rw [hvalue] at hc
      cases hc
      exact hequals
    | cons first rest =>
      have hlast := cookie.valueBlank c
      rw [hvalue] at hc hlast
      rw [List.getLast?_cons_cons] at hc
      apply hlast
      simpa using hc

theorem cookieValue?_pair {name : String} (hname : '=' ∉ name.toList) (cookie : Cookie)
    : cookieValue? name cookie.pair = if cookie.name = name then some cookie.value.toList else none := by
  unfold cookieValue?
  have hiff : (name.toList ++ ['=']).isPrefixOf cookie.pair = true ↔ cookie.name = name := by
    rw [List.isPrefixOf_iff_prefix]
    constructor
    . rintro ⟨rest, hrest⟩
      have hall : ∀ {text : String}, '=' ∉ text.toList → ∀ c ∈ text.toList, decide (c ≠ '=') = true := by
        intro text htext c hc
        rw [decide_eq_true_eq]
        rintro rfl
        exact htext hc
      have hname' := (takeWhile_append_stop ('=' :: rest) (hall hname) (by simp)).1
      have hcookie := (takeWhile_append_stop ('=' :: cookie.value.toList) (hall cookie.equalsSign) (by simp)).1
      rw [List.append_assoc, List.singleton_append] at hrest
      rw [hrest, pair, hcookie] at hname'
      exact String.toList_inj.mp hname'
    . rintro rfl
      exact ⟨cookie.value.toList, by simp [pair]⟩
  by_cases hsame : cookie.name = name
  . rw [if_pos (hiff.mpr hsame), if_pos hsame, ← hsame]
    simp [pair]
  . rw [if_neg fun h => hsame (hiff.mp h), if_neg hsame]

theorem splitOn_intercalate (first : List Char) (rest : List (List Char)) (hfirst : ';' ∉ first)
    (hrest : ∀ piece ∈ rest, ';' ∉ piece)
    : ([';', ' '].intercalate (first :: rest)).splitOn ';' = first :: rest.map (' ' :: ·) := by
  induction rest generalizing first with
  | nil =>
    rw [List.intercalate_singleton, List.splitOn_eq_singleton hfirst]
    rfl
  | cons second rest ih =>
    have hsecond : ';' ∉ ' ' :: second := by
      have hne : ';' ≠ ' ' := by decide
      simp [hrest second List.mem_cons_self, hne]
    have hshift : [';', ' '].intercalate (first :: second :: rest)
        = first ++ ';' :: [';', ' '].intercalate ((' ' :: second) :: rest) := by
      cases rest with
      | nil => simp
      | cons third rest => simp [List.intercalate_cons_cons]
    rw [hshift, List.splitOn_append_cons_self, List.splitOn_eq_singleton hfirst,
      ih (' ' :: second) hsecond fun piece hpiece => hrest piece (List.mem_cons_of_mem _ hpiece)]
    rfl

theorem findSome?_cookieValue? {name : String} (hname : '=' ∉ name.toList) (read : Cookie → List Char)
    (hread : ∀ cookie, trimChars (read cookie) = cookie.pair) (jar : List Cookie)
    : (jar.map read).findSome? (fun piece => cookieValue? name (trimChars piece))
        = (jar.find? fun cookie => cookie.name = name).map fun cookie => cookie.value.toList := by
  induction jar with
  | nil => rfl
  | cons cookie jar ih =>
    rw [List.map_cons, List.findSome?_cons, hread, cookieValue?_pair hname, List.find?_cons]
    by_cases hsame : cookie.name = name
    . simp [hsame]
    . simpa [hsame] using ih

/--
What is read of a header is the first cookie of the name.
-/
theorem findCookie_header {name : String} (hname : '=' ∉ name.toList) (jar : List Cookie)
    : findCookie name (header jar) = (jar.find? fun cookie => cookie.name = name).map Cookie.value := by
  have hblank : ∀ cookie : Cookie, trimChars (' ' :: cookie.pair) = cookie.pair := by
    intro cookie
    have hspace : ∀ c ∈ [' '], isWhitespace c = true := by
      intro c hc
      rw [List.mem_singleton.mp hc]
      decide
    have htrim : trimChars ([' '] ++ cookie.pair ++ []) = trimChars cookie.pair :=
      trimChars_append_blank cookie.pair hspace (by simp)
    rw [List.append_nil, List.singleton_append] at htrim
    rw [htrim, cookie.trimChars_pair]
  unfold findCookie header
  rw [String.toList_ofList]
  cases jar with
  | nil =>
    have hempty : cookieValue? name (trimChars []) = none := by
      rw [cookieValue?, if_neg]
      cases name.toList with
      | nil | cons => exact Bool.false_ne_true
    simp [hempty]
  | cons first rest =>
    have hlater := findSome?_cookieValue? hname ((' ' :: ·) ∘ pair) hblank rest
    have hsplit := splitOn_intercalate first.pair (rest.map pair) first.not_mem_pair (by simp [not_mem_pair])
    rw [List.map_cons, hsplit, List.findSome?_cons, trimChars_pair, cookieValue?_pair hname, List.map_map, hlater,
      List.find?_cons]
    by_cases hsame : first.name = name
    . simp [hsame]
    . simp [hsame, Function.comp_def]

theorem not_mem_hyphenated {c : Char} (hdash : c ≠ '-') (hdigit : ∀ n < 16, c ≠ Nat.digitChar n) (uuid : Uuid)
    : c ∉ uuid.hyphenated.toList := by
  intro hc
  rcases Uuid.mem_hyphenated hc with rfl | ⟨n, hn, rfl⟩
  . exact hdash rfl
  . exact hdigit n hn rfl

def ofToken (token : Uuid) : Cookie where
  name := SESSION_COOKIE_NAME
  value := token.hyphenated
  equalsSign := by decide
  nameSemicolon := by decide
  valueSemicolon := not_mem_hyphenated (by decide) (by decide) token
  nameBlank := by
    intro c hc
    obtain rfl : 'h' = c := by simpa [SESSION_COOKIE_NAME] using hc
    decide
  valueBlank := by
    intro c hc
    have hdigit : ∀ n < 16, isWhitespace (Nat.digitChar n) = false := by decide
    rcases Uuid.mem_hyphenated (List.mem_of_mem_getLast? hc) with rfl | ⟨n, hn, rfl⟩
    . decide
    . exact hdigit n hn

-- what a browser keeps of a `Set-Cookie` header, apart from the attributes
def kept (setCookie : String) : List Char := (setCookie.toList.splitOn ';').headD []

theorem kept_sessionCookie (app : AuthAppState) (token : Uuid)
    : kept (sessionCookie app token.hyphenated) = (ofToken token).pair := by
  have hattributes : ∃ attributes, (sessionCookie app token.hyphenated).toList
      = (ofToken token).pair ++ ';' :: attributes := by
    have hequals : "=".toList = ['='] := rfl
    have hhttpOnly : "; HttpOnly".toList = ';' :: " HttpOnly".toList := rfl
    refine ⟨" HttpOnly".toList ++ (secureFlag app ++ "; SameSite=Lax; Path=/; Max-Age="
      ++ toString SESSION_DURATION).toList, ?_⟩
    simp only [sessionCookie, String.toList_append, hequals, hhttpOnly, pair, ofToken, List.append_assoc,
      List.cons_append, List.nil_append]
  obtain ⟨attributes, hsplit⟩ := hattributes
  rw [kept, hsplit, List.splitOn_append_cons_self, List.splitOn_eq_singleton (ofToken token).not_mem_pair]
  rfl

end Cookie

section Run

-- the cookie that a login has set is the one that is read
theorem extractSessionCookie_of_jar {headers : HeaderMap} {jar : List Cookie} {token : Uuid}
    (hheader : headers "cookie" = some (Cookie.header jar))
    (hjar : (jar.find? fun cookie => cookie.name = SESSION_COOKIE_NAME).map Cookie.pair
      = some (Cookie.ofToken token).pair)
    : extractSessionCookie headers = some token.hyphenated := by
  have hname : '=' ∉ SESSION_COOKIE_NAME.toList := by decide
  rw [extractSessionCookie, extractCookieValue, hheader, Option.bind_some, Cookie.findCookie_header hname]
  obtain ⟨cookie, hfind, hpair⟩ := Option.map_eq_some_iff.mp hjar
  have hsame : cookie.name = SESSION_COOKIE_NAME := by simpa using List.find?_some hfind
  rw [hfind, Option.map_some]
  rw [Cookie.pair, Cookie.pair, hsame] at hpair
  have hvalue := (List.cons.inj (List.append_cancel_left hpair)).2
  exact congrArg some (String.toList_inj.mp hvalue)

variable {ι : Type} [DecidableEq ι] {hashToken : String → String} {parseUuid : String → Option Uuid}
  {app : AuthAppState} {visits : ι → Visit} {turns : List (ι × AuthExternals)}

theorem created_inj {userId userId' : Uuid} {duration : Int} {rawToken rawToken' csrfToken csrfToken' : String}
    (h : (⟨.createSession userId duration, .ok (rawToken, csrfToken)⟩ : AuthEvent)
      = ⟨.createSession userId' duration, .ok (rawToken', csrfToken')⟩)
    : userId = userId' ∧ rawToken = rawToken' ∧ csrfToken = csrfToken' := by
  cases h
  exact ⟨rfl, rfl, rfl⟩

theorem UserId.ext {userId userId' : UserId} (h : userId.val = userId'.val) : userId = userId' := by
  cases userId
  cases userId'
  exact congrArg UserId.mk h

theorem rawToken_of_created {before after : List (AuthEntry ι)} {client : ι} {externals : AuthExternals}
    {userId : Uuid} {duration : Int} {rawToken csrfToken : String}
    (hjournal : (authRun hashToken parseUuid app visits turns).journal
      = before ++ ⟨client, externals, .createSession userId duration, .ok (rawToken, csrfToken)⟩ :: after)
    : rawToken = externals.rawToken.hyphenated := by
  have hreply := answered_authRun before _ after hjournal
  let shared := replay (AuthCommand.answer hashToken) .new before
  have hcreated : .ok (rawToken, csrfToken)
      = (SessionStore.createSession hashToken externals userId duration shared.users shared.sessions).1 := hreply
  rcases SessionStore.createSession_cases hashToken externals userId duration shared.users shared.sessions with
    ⟨message, hfailed⟩ | ⟨sessions', _, hok, _⟩
  . rw [hfailed] at hcreated
    cases hcreated
  . rw [hok] at hcreated
    cases hcreated
    rfl

/--
What a callback has answered with is what it has created.
-/
theorem signIn_of_callback {c : ι} {params : CallbackParams} {response : AuthResponse}
    (hvisit : visits c = .callback params)
    (hresponded : (authRun hashToken parseUuid app visits turns).programs c = .done (.response response))
    (hstatus : response.status = 200) {before after : List (AuthEntry ι)} {created : AuthEntry ι}
    (hjournal : (authRun hashToken parseUuid app visits turns).journal = before ++ created :: after)
    (hclient : created.client = c) (hcreates : createsSession created = true)
    : ∃ (signIn : SignIn ι) (token : Uuid), signIn.Of visits ∧ signIn.opened = created
        ∧ signIn.rawToken = token.hyphenated
        ∧ response = callbackResponse app token.hyphenated signIn.csrfToken signIn.data.userId := by
  have hended := endsIn_of_done hresponded
  rw [hvisit] at hended
  obtain ⟨data, rawToken, csrfToken, _, rfl, hlog⟩ := hended hstatus
  obtain ⟨client, externals, command, reply⟩ := created
  obtain ⟨userId, duration, pair, hevent⟩ := createsSession_iff.mp hcreates
  cases hevent
  -- there is one session that the client has created
  have hseen : ⟨.createSession userId duration, .ok pair⟩
      ∈ log c (authRun hashToken parseUuid app visits turns).journal := by
    rw [hjournal, log_append, log_cons_self hclient]
    exact List.mem_append_right _ List.mem_cons_self
  rw [hlog] at hseen
  have hopened : (⟨.createSession userId duration, .ok pair⟩ : AuthEvent) = data.opened rawToken csrfToken := by
    simpa [LoginData.consumed, LoginData.exchanged, LoginData.found] using hseen
  cases hopened
  have hopens : Opens hashToken (hashToken rawToken) ⟨data.userId.val, csrfToken, externals.newSessionId⟩ _
      (⟨client, externals, .createSession data.userId.val SESSION_DURATION, .ok (rawToken, csrfToken)⟩
        : AuthEntry ι) :=
    opens_created.mpr ⟨rfl, rfl, rfl⟩
  obtain ⟨signIn, hsignIn, hcreated, _⟩ := signIn_of_opens hopens hjournal
  obtain ⟨huser, hraw, hcsrf⟩ := created_inj (congrArg Entry.event hcreated)
  have hdrawn := rawToken_of_created hjournal
  refine ⟨signIn, externals.rawToken, hsignIn, hcreated, hraw.trans hdrawn, ?_⟩
  rw [hdrawn, hcsrf, UserId.ext huser]

/--
Before its first command a request has seen nothing, and it is about the token of its cookie.
-/
theorem validated_of_request {r : ι} {parts : Parts} (hvisit : visits r = .request parts)
    {before after : List (AuthEntry ι)} {validated : AuthEntry ι}
    (hjournal : (authRun hashToken parseUuid app visits turns).journal = before ++ validated :: after)
    (hclient : validated.client = r)
    : log r before = [] ∧ ∃ rawToken reply,
        validated = ⟨r, validated.env, .validateSession rawToken, reply⟩
          ∧ extractSessionCookie parts.headers = some rawToken := by
  subst hclient
  have hasks := asks_of_journal hjournal
  rw [hvisit] at hasks
  obtain ⟨client, externals, command, reply⟩ := validated
  cases command with
  | validateSession rawToken =>
    obtain ⟨hlog, headers, hcookie, hvisit | hvisit | ⟨method, hvisit⟩⟩ := hasks
    . cases hvisit
    . cases hvisit
    . cases hvisit
      exact ⟨hlog, rawToken, reply, rfl, hcookie⟩
  | authorizationUrl | storeState => cases hasks.1
  | consumeState | exchangeCode =>
    obtain ⟨_, _, hvisit, _⟩ := hasks
    cases hvisit
  | findOrCreateByExternalId =>
    obtain ⟨_, _, _, _, _, hvisit, _⟩ := hasks
    cases hvisit
  | createSession =>
    obtain ⟨_, _, _, hvisit, _⟩ := hasks
    cases hvisit
  | revokeSession =>
    obtain ⟨_, _, _, hvisit, _⟩ := hasks
    cases hvisit
  | revokeAllUserSessions | cleanupExpired | restart => cases hasks

/--
A request that has found its session is let in if its CSRF token is right.
-/
theorem let_in_of_valid {r : ι} {parts : Parts} {result : Except AuthSessionError Actor} {info : SessionInfo}
    {rawToken : String} (hdev : app.devAuthEnabled = false) (hvisit : visits r = .request parts)
    (hdone : (authRun hashToken parseUuid app visits turns).programs r = .done (.authenticated result))
    (hcookie : extractSessionCookie parts.headers = some rawToken)
    (hseen : ⟨.validateSession rawToken, .ok (some info)⟩
      ∈ log r (authRun hashToken parseUuid app visits turns).journal)
    (hcsrf : parts.headers CSRF_HEADER_NAME = some info.csrfToken)
    : result = .ok { userId := ⟨info.userId⟩ } := by
  have hended := endsIn_of_done hdone
  rw [hvisit] at hended
  cases result with
  | error e => exact absurd hcsrf (hended rawToken info hcookie hseen).2.2
  | ok actor =>
    rcases hended with ⟨hdev', _⟩ | ⟨rawToken', info', hlets⟩
    . rw [hdev] at hdev'
      cases hdev'
    . have hlog := hlets.log
      rw [hlog, List.mem_singleton] at hseen
      cases hseen
      have huser : actor.userId = ⟨info.userId⟩ := UserId.ext hlets.actor
      exact congrArg Except.ok (congrArg Actor.mk huser)

/--
A request with the cookie and the CSRF token of a login is let in as the user who has logged in, unless the database
is out of order, the session has expired, or it has been revoked or cleaned up in between.
-/
theorem let_in_or_reason {c r : ι} {params : CallbackParams} {parts : Parts} {response : AuthResponse}
    {result : Except AuthSessionError Actor} {jar : List Cookie} (hdev : app.devAuthEnabled = false)
    (hcallback : visits c = .callback params) (hrequest : visits r = .request parts)
    (hresponded : (authRun hashToken parseUuid app visits turns).programs c = .done (.response response))
    (hstatus : response.status = 200)
    (hdone : (authRun hashToken parseUuid app visits turns).programs r = .done (.authenticated result))
    (hheader : parts.headers "cookie" = some (Cookie.header jar))
    (hjar : (jar.find? fun cookie => cookie.name = SESSION_COOKIE_NAME).map Cookie.pair
      = response.setCookie.map Cookie.kept)
    (hcsrf : response.body.bind (Json.get? "csrf_token") = (parts.headers CSRF_HEADER_NAME).map Json.str)
    {before mid after : List (AuthEntry ι)} {created validated : AuthEntry ι}
    (hjournal : (authRun hashToken parseUuid app visits turns).journal
      = before ++ created :: mid ++ validated :: after)
    (hcreated : created.client = c ∧ createsSession created = true) (hvalidated : validated.client = r)
    : ∃ signIn : SignIn ι, signIn.Of visits ∧ signIn.opened = created
        ∧ (result = .ok { userId := signIn.data.userId }
          ∨ validated.env.outage ≠ none
          ∨ signIn.expiresAt ≤ validated.env.dbNow
          ∨ ∃ entry ∈ mid, Closes signIn.info signIn.expiresAt entry) := by
  have hcreatedAt := hjournal
  rw [List.append_assoc, List.cons_append] at hcreatedAt
  obtain ⟨signIn, token, hsignIn, hopened, hraw, rfl⟩ :=
    signIn_of_callback hcallback hresponded hstatus hcreatedAt hcreated.1 hcreated.2
  refine ⟨signIn, hsignIn, hopened, ?_⟩
  obtain ⟨_, rawToken, reply, hentry, hcookie⟩ := validated_of_request hrequest hjournal hvalidated
  -- the cookie is the one of the login, and so is the CSRF token
  have hsent : extractSessionCookie parts.headers = some token.hyphenated := by
    apply extractSessionCookie_of_jar hheader
    rw [hjar]
    exact congrArg some (Cookie.kept_sessionCookie app token)
  rw [hcookie, Option.some.injEq] at hsent
  have htoken : parts.headers CSRF_HEADER_NAME = some signIn.csrfToken := by
    obtain ⟨text, htext, hjson⟩ := Option.map_eq_some_iff.mp hcsrf.symm
    cases hjson
    exact htext
  by_cases houtage : validated.env.outage = none
  . by_cases hexpires : signIn.expiresAt ≤ validated.env.dbNow
    . exact .inr (.inr (.inl hexpires))
    . by_cases hcloses : ∃ entry ∈ mid, Closes signIn.info signIn.expiresAt entry
      . exact .inr (.inr (.inr hcloses))
      . left
        have hopens : Opens hashToken (hashToken rawToken) signIn.info signIn.expiresAt created := by
          rw [← hopened, hsent, ← hraw]
          exact opens_created.mpr ⟨rfl, rfl, rfl⟩
        have hlasts : ∀ entry ∈ mid, ¬Closes signIn.info signIn.expiresAt entry :=
          fun entry hmem hentry => hcloses ⟨entry, hmem, hentry⟩
        rw [hentry] at hjournal
        have hvalid : reply = .ok (some signIn.info) := (valid_iff_since hjournal).mpr
          ⟨houtage, signIn.expiresAt, not_le.mp hexpires, before, created, mid, rfl, hopens, hlasts⟩
        rw [hvalid] at hjournal
        have hmem : ⟨r, validated.env, .validateSession rawToken, .ok (some signIn.info)⟩
            ∈ (authRun hashToken parseUuid app visits turns).journal := by
          rw [hjournal]
          exact List.mem_append_right _ List.mem_cons_self
        have hseen := event_mem_log hmem
        exact let_in_of_valid hdev hrequest hdone hcookie hseen htoken
  . exact .inr (.inl houtage)

theorem let_in_or_reason_sampleRun
    : ∃ signIn : SignIn Nat, signIn.Of sampleVisits ∧ some signIn.opened = sampleRun.journal[5]?
        ∧ ((.ok { userId := ⟨⟨1⟩⟩ } : Except AuthSessionError Actor) = .ok { userId := signIn.data.userId }
          ∨ none ≠ (none : Option String)
          ∨ signIn.expiresAt ≤ 2
          ∨ ∃ entry ∈ ([] : List (AuthEntry Nat)), Closes signIn.info signIn.expiresAt entry) := by
  let response := callbackResponse sampleAuthApp (sampleText 1) (sampleText 1) ⟨⟨1⟩⟩
  let created := (sampleSignIn 0 1).opened
  have hresponded : sampleRun.programs 1 = .done (.response response) := rfl
  have hdone : sampleRun.programs 2 = .done (.authenticated (.ok { userId := ⟨⟨1⟩⟩ })) := rfl
  have hheader : sampleSignedIn 1 "cookie" = some (Cookie.header [Cookie.ofToken ⟨1⟩]) := by decide +kernel
  have hjar : ([Cookie.ofToken ⟨1⟩].find? fun cookie => cookie.name = SESSION_COOKIE_NAME).map Cookie.pair
      = response.setCookie.map Cookie.kept := by decide +kernel
  have hcsrf : response.body.bind (Json.get? "csrf_token") = (sampleSignedIn 1 CSRF_HEADER_NAME).map Json.str := rfl
  have hjournal : sampleRun.journal
      = sampleRun.journal.take 5 ++ created :: []
        ++ ⟨2, sampleAuthExternals 2, .validateSession (sampleText 1), .ok (some ⟨⟨1⟩, sampleText 1, ⟨1⟩⟩)⟩
          :: sampleRun.journal.drop 7 := rfl
  have hcallback : sampleVisits 1 = .callback ⟨some "code", some (sampleText 0), none, none⟩ := rfl
  have hrequest : sampleVisits 2 = .request ⟨.post, sampleSignedIn 1⟩ := rfl
  obtain ⟨signIn, hof, hopened, hrest⟩ := let_in_or_reason rfl hcallback hrequest hresponded rfl hdone hheader hjar
    hcsrf hjournal ⟨rfl, rfl⟩ rfl
  exact ⟨signIn, hof, congrArg some hopened, hrest⟩

end Run

end Identity
