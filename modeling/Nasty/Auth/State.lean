import Nasty.Lib.Checks
import Nasty.Lib.Lists
import Nasty.Lib.Text

/-!
# The state of the authentication service

The service keeps users, login sessions and API tokens. Every operation works on a clone of the
state and then commits it: `commitState` installs the clone when it has reached the disk. The
operations here are the changes to the clone, `Except AuthError (α × AuthState)`; `transact` puts
one of them into its critical section.
-/

namespace Nasty.Auth

inductive Role
  | admin
  | readOnly
  | operator
  | user
  deriving DecidableEq

structure User where
  username : String
  passwordHash : Option String
  role : Role
  filePrincipal : Option String
  mustChangePassword : Bool
  oidcSubject : Option String
  oidcIssuer : Option String

structure Session where
  token : String
  username : String
  role : Role
  filePrincipal : Option String
  filesystem : Option String
  owner : Option String
  createdAt : UInt64
  mustChangePassword : Bool
  clientIp : Option String
  deriving DecidableEq

structure ApiToken where
  id : String
  name : String
  token : String
  role : Role
  createdAt : UInt64
  filesystem : Option String
  expiresAt : Option UInt64
  allowedIps : List String

structure AuthState where
  users : List User
  sessions : List Session
  apiTokens : List ApiToken
  initialized : Bool

inductive AuthError
  | invalidCredentials
  | accountLocked
  | invalidToken
  | tokenExpired
  | forbidden
  | userNotFound
  | userExists
  | weakPassword
  | invalidFilePrincipal (reason : String)
  | hashError (reason : String)
  /-- The state could not be written to disk. -/
  | stateIo (reason : String)
  deriving DecidableEq

structure OidcIdentity where
  issuer : String
  subject : String
  email : Option String
  preferredUsername : Option String

def sessionTtlSecs : UInt64 := 8 * 3600

/-! ## Authorization -/

inductive EndpointAccess
  | read
  | mutation
  | unscopedMutation
  | rootEquivalent
  | selfService
  | portalFiles
  deriving DecidableEq

inductive AccessDenied
  | passwordChangeRequired
  | insufficientRole
  | scopedCredential
  | missingFilePrincipal
  | interactiveSessionRequired

def roleAllowed (role : Role) : EndpointAccess → Bool
  | .read => role ≠ .user
  | .selfService => true
  | .mutation | .unscopedMutation => role = .admin ∨ role = .operator
  | .rootEquivalent => role = .admin
  | .portalFiles => role = .user

def EndpointAccess.unscoped : EndpointAccess → Bool
  | .unscopedMutation | .rootEquivalent | .portalFiles => true
  | _ => false

def authorizeSession (session : Session) (access : EndpointAccess) : Except AccessDenied Unit := do
  .refuse (session.mustChangePassword ∧ access ≠ .selfService) .passwordChangeRequired
  .refuse (¬ roleAllowed session.role access) .insufficientRole
  .refuse (access.unscoped ∧ (session.filesystem.isSome ∨ session.owner.isSome)) .scopedCredential
  .refuse (access = .portalFiles ∧ session.clientIp.isNone) .interactiveSessionRequired
  .refuse (access = .portalFiles ∧ session.filePrincipal.all (·.isEmpty)) .missingFilePrincipal

def requireUnscopedAdmin (session : Session) : Except AuthError Unit :=
  (authorizeSession session .rootEquivalent).mapError fun _ => .forbidden

/-- The principal of a role and its user: `None` unless the role is `Role::User`. -/
def boundPrincipal (role : Role) (filePrincipal : Option String) : Option String :=
  if role = .user then filePrincipal else none

def isControl (c : Char) : Bool := c.toNat < 32 ∨ 127 ≤ c.toNat ∧ c.toNat < 160

def validateFilePrincipalBinding (role : Role) (filePrincipal : Option String) :
    Except AuthError (Option String) :=
  match role with
  | .user =>
    match (filePrincipal.map fun p => String.ofList (Text.trim p.toList)).filter
        (¬ ·.isEmpty) with
    | none => .error (.invalidFilePrincipal "Role::User requires a non-empty file_principal")
    | some principal =>
      if principal.utf8ByteSize > 256 ∨ principal.toList.any isControl then
        .error (.invalidFilePrincipal "principal is too long or contains control characters")
      else .ok (some principal)
  | .admin | .operator | .readOnly =>
    if filePrincipal.isSome then
      .error (.invalidFilePrincipal "file_principal is only valid for Role::User")
    else .ok none

/-! ## Sessions -/

/-- Sessions not older than the time to live. The subtraction wraps, as on the source's `u64`. -/
def pruneSessions (now : UInt64) (sessions : List Session) : List Session :=
  sessions.filter fun s => now - s.createdAt ≤ sessionTtlSecs

def newSession (token username : String) (role : Role) (filePrincipal : Option String)
    (now : UInt64) (mustChangePassword : Bool) (clientIp : String) : Session where
  token := token
  username := username
  role := role
  filePrincipal := boundPrincipal role filePrincipal
  filesystem := none
  owner := none
  createdAt := now
  mustChangePassword := mustChangePassword
  clientIp := some clientIp

def pushSession (state : AuthState) (now : UInt64) (session : Session) : AuthState :=
  { state with sessions := pruneSessions now state.sessions ++ [session] }

def revokeUserSessions (sessions : List Session) (username : String) : List Session :=
  sessions.filter (·.username ≠ username)

def revokeSessionsAfterPasswordChange (sessions : List Session)
    (targetUsername actorUsername currentToken : String) : List Session :=
  let changingOwnPassword := targetUsername = actorUsername
  let kept := sessions.filter fun s =>
    s.username ≠ targetUsername ∨ (changingOwnPassword ∧ s.token = currentToken)
  if changingOwnPassword then
    kept.modifyFirst (·.token = currentToken) fun s => { s with mustChangePassword := false }
  else kept

/-! ## Operations -/

/-- The second phase of `login`, if the name and the password hash are still those of a user. -/
def mintLogin (username clientIp token : String) (now : UInt64) (user : User)
    (state : AuthState) : Except AuthError (String × AuthState) :=
  if state.users.any fun u => u.username = username ∧ u.passwordHash = user.passwordHash then
    .ok (token, pushSession state now
      (newSession token user.username user.role user.filePrincipal now user.mustChangePassword
        clientIp))
  else .error .invalidCredentials

def mintSessionForWebauthn (username clientIp token : String) (now : UInt64)
    (state : AuthState) : Except AuthError (String × AuthState) :=
  match state.users.find? (·.username = username) with
  | none => .error .userNotFound
  | some user => .ok (token, pushSession state now
      (newSession token user.username user.role user.filePrincipal now false clientIp))

def baseUsername (identity : OidcIdentity) : String :=
  let base := (identity.preferredUsername.or
    (identity.email.map fun e => String.ofList (e.toList.takeWhile (· ≠ '@')))).getD
      identity.subject
  let base := String.ofList (Text.trim base.toList)
  if base.isEmpty then identity.subject else base

def candidate (base : String) (n : ℕ) : String := s!"{base}-{n}"

/-- The first free one of the base and its candidates from 2 on (`pickUsername_isFirstFree`). -/
def pickUsername (existing : List User) (identity : OidcIdentity) : String :=
  let base := baseUsername identity
  if base ∉ existing.map (·.username) then base
  else (((List.range' 2 (existing.length + 1)).map (candidate base)).find?
    (· ∉ existing.map (·.username))).getD base

def oidcUser (identity : OidcIdentity) (u : User) : Bool :=
  u.oidcSubject = some identity.subject ∧ u.oidcIssuer = some identity.issuer

def assignRole (role : Role) (user : User) : User :=
  { user with role, filePrincipal := if role ≠ .user then none else user.filePrincipal }

/-- The role follows the groups, and a changed role revokes the sessions of the old one. -/
def admitOidc (role : Role) (clientIp token : String) (now : UInt64) (user : User)
    (p : User → Bool) (state : AuthState) : AuthState :=
  if user.role ≠ role then
    let user := assignRole role user
    pushSession
      { state with
        users := state.users.modifyFirst p (assignRole role)
        sessions := revokeUserSessions state.sessions user.username } now
      (newSession token user.username role user.filePrincipal now false clientIp)
  else
    pushSession state now
      (newSession token user.username role user.filePrincipal now false clientIp)

def loginOrProvisionOidc (identity : OidcIdentity) (derivedRole : Option Role)
    (autoProvision : Bool) (clientIp token : String) (now : UInt64) (state : AuthState) :
    Except AuthError (String × AuthState) :=
  match derivedRole with
  | none => .error .forbidden
  | some role =>
    let existing := state.users.find? (oidcUser identity)
    if role = .user ∧ (existing.bind (·.filePrincipal)).all (·.isEmpty) then .error .forbidden
    else
      match existing with
      | some user =>
        .ok (token, admitOidc role clientIp token now user (oidcUser identity) state)
      | none =>
        if ¬ autoProvision then .error .userNotFound
        else
          let user : User :=
            { username := pickUsername state.users identity, passwordHash := none, role,
              filePrincipal := none, mustChangePassword := false,
              oidcSubject := some identity.subject, oidcIssuer := some identity.issuer }
          .ok (token, admitOidc role clientIp token now user (oidcUser identity)
            { state with users := state.users ++ [user] })

structure NewToken where
  id : String
  hash : String
  createdAt : UInt64

def createApiToken (session : Session) (name : String) (role : Role) (filesystem : Option String)
    (expiresInSecs : Option UInt64) (allowedIps : List String) (new : NewToken)
    (state : AuthState) : Except AuthError (ApiToken × AuthState) := do
  requireUnscopedAdmin session
  .refuse (role = .user) .forbidden
  .refuse (state.apiTokens.any (·.name = name) ∨ state.users.any (·.username = name)) .userExists
  let stored : ApiToken :=
    { id := new.id, name, token := new.hash, role, createdAt := new.createdAt, filesystem,
      expiresAt := expiresInSecs.map (new.createdAt + ·), allowedIps }
  .ok (stored, { state with apiTokens := state.apiTokens ++ [stored] })

def deleteApiToken (session : Session) (id : String) (state : AuthState) :
    Except AuthError (Unit × AuthState) := do
  requireUnscopedAdmin session
  let kept := state.apiTokens.filter (·.id ≠ id)
  .refuse (kept.length = state.apiTokens.length) .userNotFound
  .ok ((), { state with apiTokens := kept })

def logout (token : String) (state : AuthState) : Except AuthError (Unit × AuthState) :=
  let kept := state.sessions.filter (·.token ≠ token)
  if kept.length = state.sessions.length then .error .invalidToken
  else .ok ((), { state with sessions := kept })

/-- `hash` is the outcome of `hash_password`, whose salt is random. -/
def changePassword (session : Session) (username newPassword : String)
    (hash : Except AuthError String) (state : AuthState) : Except AuthError (Unit × AuthState) := do
  .refuse session.clientIp.isNone .forbidden
  .refuse (session.role ≠ .admin ∧ session.username ≠ username) .forbidden
  .refuse (newPassword.utf8ByteSize < 8) .weakPassword
  .refuse (¬ state.users.any (·.username = username)) .userNotFound
  let hash ← hash
  .ok ((), { state with
    users := state.users.modifyFirst (·.username = username) fun u =>
      { u with passwordHash := some hash, mustChangePassword := false }
    sessions := revokeSessionsAfterPasswordChange state.sessions username session.username
      session.token })

/-- Resolve a principal; `authorization` is the answer of the SMB service. -/
def checkPrincipal (authorization : String → Except String Unit) :
    Option String → Except AuthError Unit
  | none => .ok ()
  | some principal => (authorization principal).mapError .invalidFilePrincipal

def createUser (session : Session) (username password : String) (role : Role)
    (filePrincipal : Option String) (authorization : String → Except String Unit)
    (hash : Except AuthError String) (state : AuthState) : Except AuthError (Unit × AuthState) := do
  requireUnscopedAdmin session
  .refuse (password.utf8ByteSize < 8) .weakPassword
  let filePrincipal ← validateFilePrincipalBinding role filePrincipal
  checkPrincipal authorization filePrincipal
  .refuse (state.users.any (·.username = username) ∨ state.apiTokens.any (·.name = username))
    .userExists
  let hash ← hash
  .ok ((), { state with
    users := state.users ++
      [{ username, passwordHash := some hash, role, filePrincipal, mustChangePassword := false,
         oidcSubject := none, oidcIssuer := none }] })

def deleteUser (session : Session) (username : String) (state : AuthState) :
    Except AuthError (Unit × AuthState) := do
  requireUnscopedAdmin session
  .refuse (session.username = username) .forbidden
  let kept := state.users.filter (·.username ≠ username)
  .refuse (kept.length = state.users.length) .userNotFound
  .ok ((), { state with
    users := kept
    sessions := state.sessions.filter (·.username ≠ username) })

def validate (hashToken : String → String) (token clientIp : String) (now : UInt64)
    (state : AuthState) : Except AuthError Session :=
  match state.sessions.find? (·.token = token) with
  | some session =>
    if now - session.createdAt > sessionTtlSecs then .error .tokenExpired
    else if session.clientIp.any (· ≠ clientIp) then .error .invalidToken
    else .ok session
  | none =>
    match state.apiTokens.find? (·.token = hashToken token) with
    | none => .error .invalidToken
    | some t =>
      if t.expiresAt.any (now ≥ ·) then .error .tokenExpired
      else if ¬ t.allowedIps.isEmpty ∧ clientIp ∉ t.allowedIps then .error .invalidToken
      else .ok
        { token, username := t.name, role := t.role, filePrincipal := none,
          filesystem := t.filesystem, owner := if t.role = .operator then some t.name else none,
          createdAt := t.createdAt, mustChangePassword := false, clientIp := none }

/-- What `validate` does about an expired session once it holds the write lock. -/
def dropSession (token : String) (state : AuthState) : AuthState :=
  { state with sessions := state.sessions.filter (·.token ≠ token) }

/-! ## Commit -/

/-- The outcome of writing the state to disk. It can fail after the file was replaced. -/
inductive Persist
  | saved
  | failed (source : AuthError) (committed : Bool)

def finishStateCommit (current next : AuthState) : Persist → Except AuthError Unit × AuthState
  | .saved => (.ok (), next)
  | .failed source committed => (.error source, if committed then next else current)

/-- An operation in its critical section: clone, change, commit. -/
def transact {α : Type} (persist : Persist) (op : AuthState → Except AuthError (α × AuthState))
    (current : AuthState) : Except AuthError α × AuthState :=
  match op current with
  | .error e => (.error e, current)
  | .ok (a, next) =>
    let (committed, state) := finishStateCommit current next persist
    (committed.map fun _ => a, state)

theorem transact_cases {α : Type} {persist : Persist}
    {op : AuthState → Except AuthError (α × AuthState)} {current : AuthState} :
    (transact persist op current).2 = current ∨
      ∃ a, op current = .ok (a, (transact persist op current).2) := by
  unfold transact
  rcases hop : op current with e | ⟨a, next⟩
  · exact .inl rfl
  rcases persist with _ | ⟨source, _ | _⟩
  · exact .inr ⟨a, rfl⟩
  · exact .inl rfl
  · exact .inr ⟨a, rfl⟩

def bootstrapped (hash : String) : AuthState where
  users := [{ username := "admin", passwordHash := some hash, role := .admin,
              filePrincipal := none, mustChangePassword := true, oidcSubject := none,
              oidcIssuer := none }]
  sessions := []
  apiTokens := []
  initialized := true

end Nasty.Auth
