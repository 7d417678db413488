import Nasty.Auth.RateLimit
import Nasty.Lib.Lts

/-!
# The authentication service as a transition system

A step is one critical section. A login by password takes three: the rate limit lets the call in,
the user is read and the password checked against it outside the lock, and a session is minted
under the write lock. Between them any other step may happen, so the calls in flight are part of
the state.
-/

namespace Nasty.Auth

open Lts Except

inductive Call
  /-- `login` before it reads the user. -/
  | password (username password clientIp : String) (now : UInt64)
  /-- `login` after the password was verified against the user read. -/
  | verified (username clientIp : String) (now : UInt64) (user : User)
  /-- `mint_session_for_webauthn` before it mints. -/
  | webauthn (username clientIp : String) (now : UInt64)

structure World where
  auth : AuthState
  rateLimit : RateLimitState
  calls : List Call
  /-- Tokens that `validate` found expired and is about to drop. -/
  expiring : List String

def World.bootstrapped (hash : String) : World where
  auth := Auth.bootstrapped hash
  rateLimit := .empty
  calls := []
  expiring := []

/-- The critical sections, with what they get from outside. Calls in flight are named by their
position. -/
inductive Event
  | loginStart (username password clientIp : String) (now : UInt64)
  | loginRead (call : ℕ)
  | loginMint (call : ℕ) (token : String) (persist : Persist)
  | webauthnStart (username clientIp : String) (now : UInt64)
  | webauthnMint (call : ℕ) (token : String) (persist : Persist)
  | loginOrProvisionOidc (identity : OidcIdentity) (derivedRole : Option Role)
      (autoProvision : Bool) (clientIp token : String) (now : UInt64) (persist : Persist)
  | changePassword (session : Session) (username newPassword : String)
      (hash : Except AuthError String) (persist : Persist)
  | createUser (session : Session) (username password : String) (role : Role)
      (filePrincipal : Option String) (authorization : String → Except String Unit)
      (hash : Except AuthError String) (persist : Persist)
  | deleteUser (session : Session) (username : String) (persist : Persist)
  | createApiToken (session : Session) (name : String) (role : Role)
      (filesystem : Option String) (expiresInSecs : Option UInt64) (allowedIps : List String)
      (new : NewToken) (persist : Persist)
  | deleteApiToken (session : Session) (id : String) (persist : Persist)
  | logout (token : String) (persist : Persist)
  | validate (token clientIp : String) (now : UInt64)
  | dropExpired (token : String) (persist : Persist)

def World.commit {α : Type} (w : World) (persist : Persist)
    (op : AuthState → Except AuthError (α × AuthState)) : World :=
  { w with auth := (transact persist op w.auth).2 }

def loginRead (env : Env) (w : World) (call : ℕ) (username password clientIp : String)
    (now : UInt64) : World :=
  let failed := { w with
    calls := w.calls.eraseIdx call
    rateLimit := w.rateLimit.recordFailedAttempt env username clientIp now }
  match w.auth.users.find? (·.username = username) with
  | none => failed
  | some user =>
    match user.passwordHash with
    | none => failed
    | some hash =>
      if env.verify password hash then
        { w with calls := w.calls.set call (.verified username clientIp now user) }
      else failed

/-- The failures of a user are forgotten before the session is committed. -/
def loginMint (w : World) (call : ℕ) (username clientIp : String) (now : UInt64) (user : User)
    (token : String) (persist : Persist) : World :=
  let w := { w with calls := w.calls.eraseIdx call }
  match mintLogin username clientIp token now user w.auth with
  | .error _ => w
  | .ok _ =>
    { w.commit persist (mintLogin username clientIp token now user) with
      rateLimit := w.rateLimit.clearFailedAttempts username }

def webauthnMint (w : World) (call : ℕ) (username clientIp : String) (now : UInt64)
    (token : String) (persist : Persist) : World :=
  let w := { w with calls := w.calls.eraseIdx call }
  let op := mintSessionForWebauthn username clientIp token now
  match (transact persist op w.auth).1 with
  | .error _ => w.commit persist op
  | .ok _ =>
    { w.commit persist op with rateLimit := w.rateLimit.clearFailedAttempts username }

def World.exec (env : Env) (w : World) : Event → World
  | .loginStart username password clientIp now =>
    match admitLogin env w.rateLimit w.auth.users username clientIp now with
    | .error _ => w
    | .ok () => { w with calls := w.calls ++ [.password username password clientIp now] }
  | .loginRead call =>
    match w.calls[call]? with
    | some (.password username password clientIp now) =>
      loginRead env w call username password clientIp now
    | _ => w
  | .loginMint call token persist =>
    match w.calls[call]? with
    | some (.verified username clientIp now user) =>
      loginMint w call username clientIp now user token persist
    | _ => w
  | .webauthnStart username clientIp now =>
    match admitLogin env w.rateLimit w.auth.users username clientIp now with
    | .error _ => w
    | .ok () => { w with calls := w.calls ++ [.webauthn username clientIp now] }
  | .webauthnMint call token persist =>
    match w.calls[call]? with
    | some (.webauthn username clientIp now) =>
      webauthnMint w call username clientIp now token persist
    | _ => w
  | .loginOrProvisionOidc identity derivedRole autoProvision clientIp token now persist =>
    w.commit persist
      (Auth.loginOrProvisionOidc identity derivedRole autoProvision clientIp token now)
  | .changePassword session username newPassword hash persist =>
    w.commit persist (Auth.changePassword session username newPassword hash)
  | .createUser session username password role filePrincipal authorization hash persist =>
    w.commit persist
      (Auth.createUser session username password role filePrincipal authorization hash)
  | .deleteUser session username persist => w.commit persist (Auth.deleteUser session username)
  | .createApiToken session name role filesystem expiresInSecs allowedIps new persist =>
    w.commit persist
      (Auth.createApiToken session name role filesystem expiresInSecs allowedIps new)
  | .deleteApiToken session id persist => w.commit persist (Auth.deleteApiToken session id)
  | .logout token persist => w.commit persist (Auth.logout token)
  | .validate token clientIp now =>
    -- only an expired login session is dropped, an API token is not
    if (w.auth.sessions.find? (·.token = token)).isSome ∧
        Auth.validate env.hashToken token clientIp now w.auth = .error .tokenExpired then
      { w with expiring := token :: w.expiring }
    else w
  | .dropExpired token persist =>
    if token ∈ w.expiring then
      { w.commit persist (fun state => .ok ((), dropSession token state)) with
        expiring := w.expiring.erase token }
    else w

def Step (env : Env) (w : World) (e : Event) (w' : World) : Prop := w.exec env e = w'

theorem run_exec (env : Env) (w : World) (es : List Event) :
    Run (Step env) w es (es.foldl (World.exec env) w) :=
  .of_foldl w es

/-! ## The effect of a step -/

inductive Effect (w : World) : Event → AuthState → Prop
  | unchanged {e} : Effect w e w.auth
  | fewerSessions {e} (sessions : List Session) (hsub : sessions ⊆ w.auth.sessions) :
      Effect w e { w.auth with sessions }
  /-- A login mints a session for the user it read in its first phase. -/
  | loggedIn {call token persist} (username clientIp : String) (now : UInt64) (user : User)
      (hcall : w.calls[call]? = some (.verified username clientIp now user))
      (hchecked : ∃ u ∈ w.auth.users, u.username = username ∧ u.passwordHash = user.passwordHash) :
      Effect w (.loginMint call token persist) (pushSession w.auth now
        (newSession token user.username user.role user.filePrincipal now user.mustChangePassword
          clientIp))
  /-- A session is minted for a current user. -/
  | minted {e} (user : User) (token clientIp : String) (now : UInt64) (hmem : user ∈ w.auth.users) :
      Effect w e (pushSession w.auth now
        (newSession token user.username user.role user.filePrincipal now false clientIp))
  | roleChanged {e} (user : User) (p : User → Bool) (role : Role) (token clientIp : String)
      (now : UInt64) (hfind : w.auth.users.find? p = some user) :
      Effect w e (pushSession
        { w.auth with
          users := w.auth.users.modifyFirst p (assignRole role)
          sessions := revokeUserSessions w.auth.sessions user.username } now
        (newSession token user.username role (assignRole role user).filePrincipal now false
          clientIp))
  | provisioned {identity role clientIp token now persist} (hrole : role ≠ .user)
      (hnew : w.auth.users.find? (oidcUser identity) = none) (user : User)
      (hname : user.username = pickUsername w.auth.users identity) (huser : user.role = role)
      (hoidc : (user.oidcSubject, user.oidcIssuer) =
        (some identity.subject, some identity.issuer)) :
      Effect w (.loginOrProvisionOidc identity (some role) true clientIp token now persist)
        (pushSession { w.auth with users := w.auth.users ++ [user] } now
          (newSession token user.username user.role user.filePrincipal now false clientIp))
  | passwordChanged {e} (username hash actor token : String) :
      Effect w e { w.auth with
        users := w.auth.users.modifyFirst (·.username = username) fun u =>
          { u with passwordHash := some hash, mustChangePassword := false }
        sessions := revokeSessionsAfterPasswordChange w.auth.sessions username actor token }
  | userCreated {e} (user : User) (hname : ∀ u ∈ w.auth.users, u.username ≠ user.username)
      (htoken : ∀ t ∈ w.auth.apiTokens, t.name ≠ user.username) (hoidc : user.oidcSubject = none) :
      Effect w e { w.auth with users := w.auth.users ++ [user] }
  | userDeleted {e} (username : String) :
      Effect w e { w.auth with
        users := w.auth.users.filter (·.username ≠ username)
        sessions := w.auth.sessions.filter (·.username ≠ username) }
  | tokenCreated {e} (token : ApiToken) (htoken : ∀ t ∈ w.auth.apiTokens, t.name ≠ token.name)
      (hname : ∀ u ∈ w.auth.users, u.username ≠ token.name) :
      Effect w e { w.auth with apiTokens := w.auth.apiTokens ++ [token] }
  | tokenDeleted {e} (id : String) :
      Effect w e { w.auth with apiTokens := w.auth.apiTokens.filter (·.id ≠ id) }

section Effect

variable {w : World} {e : Event} {t : AuthState} {r : String} {persist : Persist}

theorem Effect.transact {α : Type} {op : AuthState → Except AuthError (α × AuthState)}
    (h : ∀ a t, op w.auth = .ok (a, t) → Effect w e t) :
    Effect w e (transact persist op w.auth).2 := by
  rcases (transact_cases : (Auth.transact persist op w.auth).2 = w.auth ∨ _) with heq | ⟨a, hop⟩
  · rw [heq]
    exact .unchanged
  · exact h a _ hop

theorem effect_mintSessionForWebauthn {username clientIp token now}
    (h : mintSessionForWebauthn username clientIp token now w.auth = .ok (r, t)) :
    Effect w e t := by
  unfold mintSessionForWebauthn at h
  rcases hfind : w.auth.users.find? (·.username = username) with _ | user <;> rw [hfind] at h
  · nomatch h
  · obtain ⟨-, rfl⟩ := Prod.mk.inj (Except.ok.inj h)
    exact .minted user token clientIp now (List.mem_of_find?_eq_some hfind)

theorem effect_loginOrProvisionOidc {identity derivedRole autoProvision clientIp token now}
    (h : loginOrProvisionOidc identity derivedRole autoProvision clientIp token now
      w.auth = .ok (r, t)) :
    Effect w (.loginOrProvisionOidc identity derivedRole autoProvision clientIp token now persist)
      t := by
  unfold loginOrProvisionOidc at h
  rcases derivedRole with _ | role
  · nomatch h
  dsimp only at h
  rcases hfind : w.auth.users.find? (oidcUser identity) with _ | user <;> rw [hfind] at h
  · -- a new user has the derived role already
    split_ifs at h with hrole hauto
    obtain rfl : autoProvision = true := by simpa using hauto
    cases h
    unfold admitOidc
    rw [if_neg (by simp)]
    exact .provisioned (by simpa using hrole) hfind _ rfl rfl rfl
  dsimp only at h
  split_ifs at h with hrole
  obtain ⟨-, rfl⟩ := Prod.mk.inj (Except.ok.inj h)
  unfold admitOidc
  by_cases hsame : user.role = role
  · subst hsame
    rw [if_neg (by simp)]
    exact .minted user token clientIp now (List.mem_of_find?_eq_some hfind)
  · rw [if_pos hsame]
    exact .roleChanged user _ role token clientIp now hfind

variable {u : Unit}

theorem effect_changePassword {session username newPassword hash}
    (h : changePassword session username newPassword hash w.auth = .ok (u, t)) : Effect w e t := by
  obtain ⟨_, h⟩ := rest_ok h
  obtain ⟨_, h⟩ := rest_ok h
  obtain ⟨_, h⟩ := rest_ok h
  obtain ⟨_, h⟩ := rest_ok h
  obtain ⟨hash, h⟩ := rest_ok h
  cases h
  exact .passwordChanged username hash session.username session.token

theorem effect_createUser {session username password role filePrincipal authorization hash}
    (h : createUser session username password role filePrincipal authorization hash
      w.auth = .ok (u, t)) : Effect w e t := by
  obtain ⟨_, h⟩ := rest_ok h
  obtain ⟨_, h⟩ := rest_ok h
  obtain ⟨principal, h⟩ := rest_ok h
  obtain ⟨_, h⟩ := rest_ok h
  obtain ⟨_, hfree, h⟩ := bind_eq_ok.1 h
  obtain ⟨hash, h⟩ := rest_ok h
  cases h
  obtain ⟨hname, htoken⟩ := not_or.1 (refuse_eq_ok.1 hfree)
  exact .userCreated _ (by simpa using hname) (by simpa using htoken) rfl

theorem effect_deleteUser {session username}
    (h : deleteUser session username w.auth = .ok (u, t)) : Effect w e t := by
  obtain ⟨_, h⟩ := rest_ok h
  obtain ⟨_, h⟩ := rest_ok h
  obtain ⟨_, h⟩ := rest_ok h
  cases h
  exact .userDeleted username

theorem effect_createApiToken {session name role filesystem expiresInSecs allowedIps new}
    {stored : ApiToken} (h : createApiToken session name role filesystem expiresInSecs allowedIps
      new w.auth = .ok (stored, t)) : Effect w e t := by
  obtain ⟨_, h⟩ := rest_ok h
  obtain ⟨_, h⟩ := rest_ok h
  obtain ⟨_, hfree, h⟩ := bind_eq_ok.1 h
  cases h
  obtain ⟨htoken, hname⟩ := not_or.1 (refuse_eq_ok.1 hfree)
  exact .tokenCreated _ (by simpa using htoken) (by simpa using hname)

theorem effect_deleteApiToken {session id}
    (h : deleteApiToken session id w.auth = .ok (u, t)) : Effect w e t := by
  obtain ⟨_, h⟩ := rest_ok h
  obtain ⟨_, h⟩ := rest_ok h
  cases h
  exact .tokenDeleted id

theorem effect_logout {token} (h : logout token w.auth = .ok (u, t)) : Effect w e t := by
  unfold logout at h
  dsimp only at h
  split_ifs at h
  cases h
  exact .fewerSessions _ List.filter_sublist.subset

theorem loginRead_auth {env : Env} {call username password clientIp now} :
    (loginRead env w call username password clientIp now).auth = w.auth := by
  unfold loginRead
  split
  · rfl
  split
  · rfl
  · split <;> rfl

theorem effect_loginMint {call username clientIp now user token}
    (hcall : w.calls[call]? = some (.verified username clientIp now user)) :
    Effect w (.loginMint call token persist)
      (loginMint w call username clientIp now user token persist).auth := by
  unfold loginMint
  dsimp only
  split
  · exact .unchanged
  refine Effect.transact fun _ _ h => ?_
  unfold mintLogin at h
  split_ifs at h with hany
  cases h
  exact .loggedIn username clientIp now user hcall (by simpa using hany)

theorem effect_webauthnMint {call username clientIp now token} :
    Effect w e (webauthnMint w call username clientIp now token persist).auth := by
  have h : Effect w e (transact persist
      (mintSessionForWebauthn username clientIp token now) w.auth).2 :=
    .transact fun _ _ => effect_mintSessionForWebauthn
  unfold webauthnMint
  dsimp only
  split <;> exact h

theorem effect_exec (env : Env) (w : World) (e : Event) : Effect w e (w.exec env e).auth := by
  cases e with
  | loginStart | webauthnStart | validate =>
    dsimp only [World.exec]
    split <;> exact .unchanged
  | loginRead =>
    dsimp only [World.exec]
    split
    · rw [loginRead_auth]
      exact .unchanged
    · exact .unchanged
  | loginMint =>
    dsimp only [World.exec]
    split
    · exact effect_loginMint ‹_›
    · exact .unchanged
  | webauthnMint =>
    dsimp only [World.exec]
    split
    · exact effect_webauthnMint
    · exact .unchanged
  | loginOrProvisionOidc => exact .transact fun _ _ => effect_loginOrProvisionOidc
  | changePassword => exact .transact fun _ _ => effect_changePassword
  | createUser => exact .transact fun _ _ => effect_createUser
  | deleteUser => exact .transact fun _ _ => effect_deleteUser
  | createApiToken => exact .transact fun _ _ => effect_createApiToken
  | deleteApiToken => exact .transact fun _ _ => effect_deleteApiToken
  | logout => exact .transact fun _ _ => effect_logout
  | dropExpired =>
    dsimp only [World.exec]
    split
    · refine Effect.transact fun _ _ h => ?_
      cases h
      exact .fewerSessions _ List.filter_sublist.subset
    · exact .unchanged

end Effect

end Nasty.Auth
