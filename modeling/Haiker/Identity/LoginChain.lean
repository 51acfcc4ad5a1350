import Haiker.Identity.SessionHistory

/-!
This module contains the logins behind the requests that are let in, and that a login that has begun leads to one
session at most.
-/

open Rust
open Journal

namespace Identity

/-
The logins that have begun, as a function of what has been carried out.
-/

section Store

variable {ι : Type}

/--
A login has begun.
-/
def Begins (state : String) (data : StateEntry) (entry : AuthEntry ι) : Prop :=
  entry.event = ⟨.storeState state data.nonce data.codeVerifier, ()⟩
    ∧ data.expiresAt = entry.env.instant + DEFAULT_TTL

/--
The state is used up or overwritten.
-/
def Uses (state : String) (entry : AuthEntry ι) : Prop :=
  entry.command = .consumeState state ∨ ∃ nonce codeVerifier, entry.command = .storeState state nonce codeVerifier

namespace OidcStateStore

def Stored (state : String) (data : StateEntry) (store : OidcStateStore) : Prop :=
  store.entries.get? state = some data

variable {state : String} {data : StateEntry} {store : OidcStateStore} {now : Timestamp}

theorem stored_storeState {key nonce codeVerifier : String}
    (h : Stored state data (store.storeState now key nonce codeVerifier))
    : (key = state ∧ data = ⟨nonce, codeVerifier, now + store.ttl⟩) ∨ key ≠ state ∧ Stored state data store := by
  unfold Stored storeState at h
  dsimp only at h
  rw [HashMap.get?_insert] at h
  split at h
  . next hkey => exact .inl ⟨hkey.symm, (Option.some.inj h).symm⟩
  . next hkey => exact .inr ⟨Ne.symm hkey, HashMap.get?_of_retain h⟩

theorem stored_consumeState {key : String} (h : Stored state data (store.consumeState now key).2)
    : key ≠ state ∧ Stored state data store := by
  unfold Stored consumeState at h
  cases hget : store.entries.get? key with
  | none =>
    simp only [hget] at h
    refine ⟨?_, h⟩
    rintro rfl
    rw [hget] at h
    cases h
  | some entry =>
    simp only [hget, HashMap.get?_remove] at h
    split at h
    . cases h
    . next hkey => exact ⟨Ne.symm hkey, h⟩

theorem consumeState_eq_some {nonce codeVerifier : String}
    (h : (store.consumeState now state).1 = some (nonce, codeVerifier))
    : ∃ data, Stored state data store ∧ data.nonce = nonce ∧ data.codeVerifier = codeVerifier
        ∧ now < data.expiresAt := by
  unfold consumeState at h
  cases hget : store.entries.get? state with
  | none =>
    rw [hget] at h
    cases h
  | some entry =>
    simp only [hget] at h
    split at h
    . next hexpires =>
      cases h
      exact ⟨entry, hget, rfl, rfl, hexpires⟩
    . cases h

theorem ttl_consumeState (key : String) : (store.consumeState now key).2.ttl = store.ttl := by
  unfold consumeState
  cases store.entries.get? key with
  | none | some => rfl

end OidcStateStore

variable {hashToken : String → String} {state : String} {data : StateEntry} {journal : List (AuthEntry ι)}

theorem ttl_replay (h : Answered (AuthCommand.answer hashToken) .new journal)
    : (replay (AuthCommand.answer hashToken) .new journal).stateStore.ttl = DEFAULT_TTL := by
  apply h.induction (motive := fun journal =>
    (replay (AuthCommand.answer hashToken) .new journal).stateStore.ttl = DEFAULT_TTL)
  . rfl
  . intro journal client externals command _ ih
    rw [replay_concat]
    cases command with
    | consumeState key => exact (OidcStateStore.ttl_consumeState key).trans ih
    | restart => rfl
    | authorizationUrl | storeState | exchangeCode | findOrCreateByExternalId | createSession | validateSession
    | revokeSession | revokeAllUserSessions | cleanupExpired => exact ih

theorem since_begins (h : Answered (AuthCommand.answer hashToken) .new journal)
    (hstored : (replay (AuthCommand.answer hashToken) .new journal).stateStore.Stored state data)
    : Since (Begins state data) (Uses state) journal := by
  let holds := fun shared : AuthState => shared.stateStore.ttl = DEFAULT_TTL ∧ shared.stateStore.Stored state data
  apply h.since holds ?_ ?_ ⟨ttl_replay h, hstored⟩
  . rintro ⟨_, hstored⟩
    cases hstored
  . rintro shared client externals command ⟨httl, hstored⟩
    cases command with
    | storeState key nonce codeVerifier =>
      rcases OidcStateStore.stored_storeState hstored with ⟨rfl, rfl⟩ | ⟨hkey, hbefore⟩
      . refine .inl ⟨rfl, ?_⟩
        rw [← httl]
        rfl
      . refine .inr ⟨⟨httl, hbefore⟩, ?_⟩
        rintro (hconsume | ⟨_, _, hstore⟩)
        . cases hconsume
        . cases hstore
          exact hkey rfl
    | consumeState key =>
      obtain ⟨hkey, hbefore⟩ := OidcStateStore.stored_consumeState hstored
      refine .inr ⟨⟨(OidcStateStore.ttl_consumeState key).symm.trans httl, hbefore⟩, ?_⟩
      rintro (hconsume | ⟨_, _, hstore⟩)
      . cases hconsume
        exact hkey rfl
      . cases hstore
    | restart => cases hstored
    | authorizationUrl | exchangeCode | findOrCreateByExternalId | createSession | validateSession | revokeSession
    | revokeAllUserSessions | cleanupExpired =>
      refine .inr ⟨⟨httl, hstored⟩, ?_⟩
      rintro (hconsume | ⟨_, _, hstore⟩)
      . cases hconsume
      . cases hstore

end Store

/--
A login from its beginning to the session, with the surroundings of its accesses.
-/
structure SignIn (ι : Type) where
  data : LoginData
  url : String
  rawToken : String
  csrfToken : String
  loginClient : ι
  callbackClient : ι
  asking : AuthExternals
  storing : AuthExternals
  consuming : AuthExternals
  exchanging : AuthExternals
  finding : AuthExternals
  opening : AuthExternals

namespace SignIn

variable {ι : Type} (signIn : SignIn ι)

def authorization : AuthorizationUrl where
  url := signIn.url
  state := signIn.data.state
  nonce := signIn.data.nonce
  codeVerifier := signIn.data.codeVerifier

def asked : AuthEntry ι := ⟨signIn.loginClient, signIn.asking, .authorizationUrl, .ok signIn.authorization⟩

def stored : AuthEntry ι where
  client := signIn.loginClient
  env := signIn.storing
  command := .storeState signIn.data.state signIn.data.nonce signIn.data.codeVerifier
  reply := ()

def consumed : AuthEntry ι where
  client := signIn.callbackClient
  env := signIn.consuming
  command := .consumeState signIn.data.state
  reply := some (signIn.data.nonce, signIn.data.codeVerifier)

def exchanged : AuthEntry ι where
  client := signIn.callbackClient
  env := signIn.exchanging
  command := .exchangeCode signIn.data.code signIn.data.nonce signIn.data.codeVerifier
  reply := .ok signIn.data.claims

def found : AuthEntry ι where
  client := signIn.callbackClient
  env := signIn.finding
  command := .findOrCreateByExternalId signIn.data.claims.subject signIn.data.claims.email signIn.data.claims.name
  reply := .ok signIn.data.userId

def opened : AuthEntry ι where
  client := signIn.callbackClient
  env := signIn.opening
  command := .createSession signIn.data.userId.val SESSION_DURATION
  reply := .ok (signIn.rawToken, signIn.csrfToken)

-- when the session expires
def expiresAt : Timestamp := (signIn.opening.utcNow + SESSION_DURATION * 1000000000).toTimestamptz

-- what requests with the token are told
def info : SessionInfo where
  userId := signIn.data.userId.val
  csrfToken := signIn.csrfToken
  sessionId := signIn.opening.newSessionId

/--
The login is one of the visits, and its state came back in time.
-/
structure Of (visits : ι → Visit) (signIn : SignIn ι) : Prop where
  login : visits signIn.loginClient = .login
  callback : ∃ params, visits signIn.callbackClient = .callback params
    ∧ params.Are signIn.data.code signIn.data.state
  inTime : signIn.consuming.instant < signIn.storing.instant + DEFAULT_TTL

/--
The request of client `i` has been let in by the login: its cookie is that of the session, which has been
neither revoked nor cleaned up by then and has not expired.
-/
structure LetsIn (hashToken : String → String) (journal : List (AuthEntry ι)) (signIn : SignIn ι) (i : ι)
    (parts : Parts) : Prop where
  csrf : AuthSession.isStateChangingMethod parts.method = true →
    parts.headers CSRF_HEADER_NAME = some signIn.csrfToken
  journal : ∃ rawToken externals earlier since after,
    journal = earlier ++ signIn.opened :: since
        ++ ⟨i, externals, .validateSession rawToken, .ok (some signIn.info)⟩ :: after
      ∧ extractSessionCookie parts.headers = some rawToken
      ∧ hashToken rawToken = hashToken signIn.rawToken
      ∧ externals.dbNow < signIn.expiresAt
      ∧ (∀ entry ∈ since, ¬Closes signIn.info signIn.expiresAt entry)
      ∧ List.Sublist [signIn.asked, signIn.stored, signIn.consumed, signIn.exchanged, signIn.found] earlier

end SignIn

section Run

variable {ι : Type} [DecidableEq ι] {hashToken : String → String} {parseUuid : String → Option Uuid}
  {app : AuthAppState} {visits : ι → Visit} {turns : List (ι × AuthExternals)}

/--
A state that has been given back in time comes from a login.
-/
theorem login_of_consumed {before after : List (AuthEntry ι)} {client : ι} {externals : AuthExternals}
    {state nonce codeVerifier : String}
    (hjournal : (authRun hashToken parseUuid app visits turns).journal
      = before ++ ⟨client, externals, .consumeState state, some (nonce, codeVerifier)⟩ :: after)
    : ∃ login asking storing url, visits login = .login ∧ externals.instant < storing.instant + DEFAULT_TTL
        ∧ List.Sublist [⟨login, asking, .authorizationUrl, .ok ⟨url, state, nonce, codeVerifier⟩⟩,
            ⟨login, storing, .storeState state nonce codeVerifier, ()⟩] before := by
  have hreply := answered_authRun before _ after hjournal
  obtain ⟨data, hstored, rfl, rfl, hexpires⟩ := OidcStateStore.consumeState_eq_some hreply.symm
  obtain ⟨first, ⟨login, storing, command, reply⟩, since, rfl, ⟨hevent, hexpiresAt⟩, _⟩ :=
    since_begins (answered_before hjournal) hstored
  cases hevent
  rw [List.append_assoc, List.cons_append] at hjournal
  obtain ⟨hvisit, url, hlog⟩ := asks_of_journal hjournal
  have hasked : ⟨.authorizationUrl, .ok ⟨url, state, data.nonce, data.codeVerifier⟩⟩ ∈ log login first := by
    rw [hlog]
    exact List.mem_singleton_self _
  obtain ⟨_, asking, _, rfl⟩ := exists_of_mem_log hasked
  refine ⟨login, asking, storing, url, hvisit, ?_, ?_⟩
  . rw [hexpiresAt] at hexpires
    exact hexpires
  . rw [List.append_assoc, List.cons_append]
    exact cons_sublist_split (cons_sublist_split (List.nil_sublist _) _ _) _ _

/--
Every session comes from a login, whose steps have been taken in this order.
-/
theorem signIn_of_opens {before after : List (AuthEntry ι)} {entry : AuthEntry ι} {tokenHash : String}
    {info : SessionInfo} {expiresAt : Timestamp} (hopens : Opens hashToken tokenHash info expiresAt entry)
    (hjournal : (authRun hashToken parseUuid app visits turns).journal = before ++ entry :: after)
    : ∃ signIn : SignIn ι, signIn.Of visits ∧ signIn.opened = entry
        ∧ List.Sublist [signIn.asked, signIn.stored, signIn.consumed, signIn.exchanged, signIn.found] before := by
  obtain ⟨client, externals, command, reply⟩ := entry
  obtain ⟨duration, rawToken, hevent, _⟩ := hopens
  obtain ⟨userId, csrfToken, sessionId⟩ := info
  cases hevent
  obtain ⟨rfl, params, data, hvisit, hparams, huser, hlog⟩ := asks_of_journal hjournal
  obtain ⟨first, consuming, _, rfl, _, hlog⟩ := exists_of_log_eq_cons hlog
  obtain ⟨second, exchanging, _, rfl, _, hlog⟩ := exists_of_log_eq_cons hlog
  obtain ⟨third, finding, rest, rfl, _, _⟩ := exists_of_log_eq_cons hlog
  rw [List.append_assoc, List.cons_append] at hjournal
  obtain ⟨loginClient, asking, storing, url, hlogin, hinTime, hsublist⟩ := login_of_consumed hjournal
  let signIn : SignIn ι := {
    data, url, rawToken, csrfToken, loginClient, asking, storing, consuming, exchanging, finding
    callbackClient := client
    opening := externals
  }
  refine ⟨signIn, ⟨hlogin, ⟨params, hvisit, hparams⟩, hinTime⟩, ?_, ?_⟩
  . rw [SignIn.opened, huser]
  . have hfound := cons_sublist_split (List.nil_sublist rest) third signIn.found
    have hexchanged := cons_sublist_split hfound second signIn.exchanged
    exact hsublist.append (hexchanged.cons_cons signIn.consumed)

/--
Behind every request that is let in there is a login of the same user, unless the server is in development mode.
-/
theorem login_behind_request {i : ι} {parts : Parts} {actor : Actor} (hvisit : visits i = .request parts)
    (hdone : (authRun hashToken parseUuid app visits turns).programs i = .done (.authenticated (.ok actor)))
    : app.devAuthEnabled = true ∧ AuthSession.tryDevBearerAuth parseUuid parts = some actor
        ∨ ∃ signIn : SignIn ι, signIn.Of visits ∧ actor.userId = signIn.data.userId
          ∧ signIn.LetsIn hashToken (authRun hashToken parseUuid app visits turns).journal i parts := by
  have hended := endsIn_of_done hdone
  rw [hvisit] at hended
  refine hended.imp_right ?_
  rintro ⟨rawToken, info, hcookie, hcsrf, hactor, hlog⟩
  obtain ⟨before, externals, after, hjournal, _, _⟩ := exists_of_log_eq_cons hlog
  obtain ⟨_, expiresAt, hexpires, earlier, created, since, rfl, hopens, hlasts⟩ := (valid_iff_since hjournal).mp rfl
  have hcreated := hjournal
  rw [List.append_assoc, List.cons_append] at hcreated
  obtain ⟨signIn, hsignIn, rfl, hsublist⟩ := signIn_of_opens hopens hcreated
  obtain ⟨hhash, rfl, rfl⟩ := opens_created.mp hopens
  exact ⟨signIn, hsignIn, congrArg UserId.mk hactor,
    ⟨hcsrf, rawToken, externals, earlier, since, after, hjournal, hcookie, hhash, hexpires, hlasts, hsublist⟩⟩

theorem login_behind_request_sampleRun
    : sampleAuthApp.devAuthEnabled = true
          ∧ AuthSession.tryDevBearerAuth (fun _ => none) ⟨.post, sampleSignedIn 1⟩ = some { userId := ⟨⟨1⟩⟩ }
        ∨ ∃ signIn : SignIn Nat, signIn.Of sampleVisits ∧ (⟨⟨1⟩⟩ : UserId) = signIn.data.userId
          ∧ signIn.LetsIn id sampleRun.journal 2 ⟨.post, sampleSignedIn 1⟩ := by
  have hdone : sampleRun.programs 2 = .done (.authenticated (.ok { userId := ⟨⟨1⟩⟩ })) := rfl
  exact login_behind_request rfl hdone

def sampleSignIn (login callback : Nat) : SignIn Nat where
  data := ⟨sampleText login, "nonce", "verifier", "code", sampleClaims, ⟨⟨1⟩⟩⟩
  url := "https://provider.example/authorize"
  rawToken := sampleText callback
  csrfToken := sampleText callback
  loginClient := login
  callbackClient := callback
  asking := sampleAuthExternals login
  storing := sampleAuthExternals login
  consuming := sampleAuthExternals callback
  exchanging := sampleAuthExternals callback
  finding := sampleAuthExternals callback
  opening := sampleAuthExternals callback

end Run

/-
How often.
-/

section Count

variable {ι : Type}

def stores (state : String) : AuthEntry ι → Bool
  | ⟨_, _, .storeState key _ _, _⟩ => key = state
  | _ => false

-- a state that has been given back in time
def redeems (state : String) : AuthEntry ι → Bool
  | ⟨_, _, .consumeState key, pair⟩ => decide (key = state) && Option.isSome pair
  | _ => false

def createsSession : AuthEntry ι → Bool
  | ⟨_, _, .createSession _ _, .ok _⟩ => true
  | _ => false

def Visit.state? : Visit → Option String
  | .callback params => params.state
  | _ => none

variable {hashToken : String → String} {state : String} {journal : List (AuthEntry ι)}

namespace OidcStateStore

def held (state : String) (store : OidcStateStore) : Nat := (store.entries.get? state).toList.length

variable {now : Timestamp} {key : String} {store : OidcStateStore}

theorem held_storeState_le (nonce codeVerifier : String)
    : (store.storeState now key nonce codeVerifier).held state
        ≤ store.held state + if decide (key = state) then 1 else 0 := by
  unfold held storeState
  rw [HashMap.get?_insert, HashMap.get?_retain]
  by_cases hkey : state = key
  . simp [hkey]
  . simp only [hkey, Ne.symm hkey, if_false, decide_false, Bool.false_eq_true, Nat.add_zero]
    cases store.entries.get? state with
    | none => rfl
    | some entry => exact Option.length_toList_le

theorem held_consumeState_le
    : (store.consumeState now key).2.held state
          + (if decide (key = state) && (store.consumeState now key).1.isSome then 1 else 0)
        ≤ store.held state := by
  unfold held consumeState
  cases hget : store.entries.get? key with
  | none => simp
  | some entry =>
    dsimp only
    rw [HashMap.get?_remove]
    by_cases hkey : state = key
    . rw [hkey, hget]
      by_cases hlive : now < entry.expiresAt
      . simp [hlive]
      . simp [hlive]
    . simp [hkey, Ne.symm hkey]

end OidcStateStore

/--
A state is given back at most as often as it has been stored.
-/
theorem redeems_le_stores (h : Answered (AuthCommand.answer hashToken) .new journal)
    : journal.countP (redeems state)
        + (replay (AuthCommand.answer hashToken) .new journal).stateStore.held state
          ≤ journal.countP (stores state) := by
  apply h.induction (motive := fun journal => journal.countP (redeems state)
    + (replay (AuthCommand.answer hashToken) .new journal).stateStore.held state ≤ journal.countP (stores state))
  . rfl
  . intro journal client externals command _ ih
    rw [replay_concat, List.countP_append, List.countP_append, List.countP_singleton, List.countP_singleton]
    generalize replay (AuthCommand.answer hashToken) .new journal = shared at ih
    cases command with
    | storeState key nonce codeVerifier =>
      have hheld : (shared.stateStore.storeState externals.instant key nonce codeVerifier).held state ≤ _ :=
        OidcStateStore.held_storeState_le nonce codeVerifier
      cases hkey : decide (key = state) with
      | true | false =>
        simp only [hkey, AuthCommand.answer, AuthState.onStore, stores, redeems, Bool.false_eq_true, if_true,
          if_false] at hheld ⊢
        omega
    | consumeState key =>
      have hheld : (shared.stateStore.consumeState externals.instant key).2.held state + _ ≤ _ :=
        OidcStateStore.held_consumeState_le
      cases hredeemed : decide (key = state) && (shared.stateStore.consumeState externals.instant key).1.isSome with
      | true | false =>
        simp only [hredeemed, AuthCommand.answer, AuthState.onStore, stores, redeems, Bool.false_eq_true, if_true,
          if_false] at hheld ⊢
        omega
    | restart =>
      have hempty : OidcStateStore.new.held state = 0 := rfl
      simp only [AuthCommand.answer, AuthState.onStore, stores, redeems, hempty, Bool.false_eq_true, if_false]
      omega
    | authorizationUrl | exchangeCode | findOrCreateByExternalId | createSession | validateSession | revokeSession
    | revokeAllUserSessions | cleanupExpired => exact ih

theorem createsSession_iff {entry : AuthEntry ι}
    : createsSession entry = true
        ↔ ∃ userId duration pair, entry.event = ⟨.createSession userId duration, .ok pair⟩ := by
  obtain ⟨client, externals, command, reply⟩ := entry
  cases command with
  | createSession userId duration =>
    cases reply with
    | error message => simp [createsSession, Entry.event]
    | ok pair => simp [createsSession, Entry.event]
  | authorizationUrl | storeState | consumeState | exchangeCode | findOrCreateByExternalId | validateSession
  | revokeSession | revokeAllUserSessions | cleanupExpired | restart => simp [createsSession, Entry.event]

variable [DecidableEq ι] {parseUuid : String → Option Uuid} {app : AuthAppState} {visits : ι → Visit}
  {turns : List (ι × AuthExternals)}

/--
A session is started after the state of its callback has been given back.
-/
theorem redeemed_of_createsSession {before after : List (AuthEntry ι)} {entry : AuthEntry ι}
    (hjournal : (authRun hashToken parseUuid app visits turns).journal = before ++ entry :: after)
    (hcreates : createsSession entry = true)
    : (∀ other ∈ before, other.client = entry.client → createsSession other = false)
        ∧ ∃ state, (visits entry.client).state? = some state
          ∧ ∃ other ∈ before, other.client = entry.client ∧ redeems state other = true := by
  obtain ⟨userId, duration, pair, hevent⟩ := createsSession_iff.mp hcreates
  have hasks := asks_of_journal hjournal
  have hcommand : entry.command = .createSession userId duration := congrArg Sigma.fst hevent
  rw [hcommand] at hasks
  obtain ⟨_, params, data, hvisit, hparams, _, hlog⟩ := hasks
  constructor
  . intro other hother hclient
    have hseen := event_mem_log hother
    rw [hclient, hlog] at hseen
    by_contra hcreates
    rw [Bool.not_eq_false] at hcreates
    obtain ⟨_, _, _, hevent⟩ := createsSession_iff.mp hcreates
    rw [hevent] at hseen
    simp [LoginData.consumed, LoginData.exchanged, LoginData.found] at hseen
  . refine ⟨data.state, by rw [hvisit]; exact hparams.state, ?_⟩
    obtain ⟨first, externals, rest, rfl, _, _⟩ := exists_of_log_eq_cons hlog
    exact ⟨_, List.mem_append_right _ List.mem_cons_self, rfl, by simp [redeems, LoginData.consumed]⟩

/--
No more sessions are created for a state than logins have begun with it.
-/
theorem sessions_le_logins (state : String)
    : (authRun hashToken parseUuid app visits turns).journal.countP
          (fun entry => createsSession entry && decide ((visits entry.client).state? = some state))
        ≤ (authRun hashToken parseUuid app visits turns).journal.countP (stores state) := by
  let journal := (authRun hashToken parseUuid app visits turns).journal
  let starts : AuthEntry ι → Bool := fun entry =>
    createsSession entry && decide ((visits entry.client).state? = some state)
  -- a client starts one session at most
  have hnodup : ((journal.filter starts).map Entry.client).Nodup := by
    rw [List.Nodup, List.pairwise_map, List.pairwise_filter, List.pairwise_iff_forall_sublist]
    intro first second hsublist hfirst hsecond hclient
    obtain ⟨before, after, hsplit, hmem, hrest⟩ := List.cons_sublist_iff.mp hsublist
    obtain ⟨mid, later, rfl⟩ := List.append_of_mem (List.singleton_sublist.mp hrest)
    rw [← List.append_assoc] at hsplit
    have honce := (redeemed_of_createsSession hsplit (Bool.and_eq_true_iff.mp hsecond).1).1 first
      (List.mem_append_left _ hmem) hclient
    rw [(Bool.and_eq_true_iff.mp hfirst).1] at honce
    cases honce
  have hsubset : (journal.filter starts).map Entry.client ⊆ (journal.filter (redeems state)).map Entry.client := by
    intro client hclient
    obtain ⟨entry, hentry, rfl⟩ := List.mem_map.mp hclient
    obtain ⟨hmem, hstarts⟩ := List.mem_filter.mp hentry
    obtain ⟨hcreates, hstate⟩ := Bool.and_eq_true_iff.mp hstarts
    obtain ⟨before, after, hsplit⟩ := List.append_of_mem hmem
    obtain ⟨_, state', hstate', other, hother, hsame, hredeems⟩ := redeemed_of_createsSession hsplit hcreates
    rw [hstate', decide_eq_true_eq, Option.some.injEq] at hstate
    rw [hstate] at hredeems
    refine List.mem_map.mpr ⟨other, List.mem_filter.mpr ⟨?_, hredeems⟩, hsame⟩
    rw [hsplit]
    exact List.mem_append_left _ hother
  have hle := (List.subperm_of_subset hnodup hsubset).length_le
  rw [List.length_map, List.length_map, ← List.countP_eq_length_filter, ← List.countP_eq_length_filter] at hle
  have hstores : journal.countP (redeems state) + _ ≤ journal.countP (stores state) :=
    redeems_le_stores answered_authRun
  calc
    journal.countP starts ≤ journal.countP (redeems state) := hle
    _ ≤ journal.countP (stores state) := Nat.le_of_add_right_le hstores

end Count

end Identity
