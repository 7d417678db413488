import Nasty.Auth.State

/-!
# Ages and lifetimes

The times of sessions and tokens are `u64`. Their differences and sums wrap, so that a session that
is younger than the clock is as old as can be, and a token that lives very long has expired.

`timestamps_right_iff` says for each operation when nothing wraps and its answer is the one of the
true ages.
-/

namespace Nasty.Auth

open Except

/-- The age of a session is at most the time to live; one from the future is not old. -/
def fresh (now : UInt64) (s : Session) : Bool :=
  (now.toNat : ℤ) - s.createdAt.toNat ≤ sessionTtlSecs.toNat

/-- The difference that is formed is the true one. -/
def SubExact (now createdAt : UInt64) : Prop :=
  ((now - createdAt).toNat : ℤ) = now.toNat - createdAt.toNat

variable {now createdAt : UInt64}

theorem subExact_iff : SubExact now createdAt ↔ createdAt ≤ now := by
  have hcreated := createdAt.toNat_lt
  have hnow := now.toNat_lt
  rw [SubExact, UInt64.le_iff_toNat_le, UInt64.toNat_sub]
  omega

theorem SubExact.fresh_iff {s : Session} (h : SubExact now s.createdAt) :
    now - s.createdAt ≤ sessionTtlSecs ↔ fresh now s := by
  rw [fresh, decide_eq_true_iff, ← h, UInt64.le_iff_toNat_le, Int.ofNat_le]

theorem pruneSessions_eq {sessions : List Session} (h : ∀ s ∈ sessions, s.createdAt ≤ now) :
    pruneSessions now sessions = sessions.filter (fresh now) := by
  refine List.filter_congr fun s hs => ?_
  rw [Bool.eq_iff_iff, decide_eq_true_iff]
  exact (subExact_iff.2 (h s hs)).fresh_iff

/-! ## Logins -/

inductive Login
  | password (username clientIp token : String) (user : User)
  | oidc (identity : OidcIdentity) (derivedRole : Option Role) (autoProvision : Bool)
      (clientIp token : String)
  | webauthn (username clientIp token : String)

def Login.run (now : UInt64) (state : AuthState) :
    Login → Except AuthError (String × AuthState)
  | password username clientIp token user => mintLogin username clientIp token now user state
  | oidc identity derivedRole autoProvision clientIp token =>
    loginOrProvisionOidc identity derivedRole autoProvision clientIp token now state
  | webauthn username clientIp token => mintSessionForWebauthn username clientIp token now state

/-- The sessions whose age a login reads: all that it does not revoke for a changed role. -/
def Login.aged (state : AuthState) : Login → List Session
  | oidc identity derivedRole .. => state.sessions.filter fun s =>
      ∀ u ∈ state.users.find? (oidcUser identity), derivedRole = some u.role ∨
        s.username ≠ u.username
  | _ => state.sessions

theorem Login.sessions_of_run {state next : AuthState} {l : Login} {token : String}
    (h : l.run now state = .ok (token, next)) :
    ∃ new, next.sessions = pruneSessions now (l.aged state) ++ [new] := by
  cases l with
  | password =>
    simp only [run, mintLogin] at h
    split_ifs at h
    cases h
    exact ⟨_, rfl⟩
  | webauthn =>
    simp only [run, mintSessionForWebauthn] at h
    split at h <;> cases h
    · exact ⟨_, rfl⟩
  | oidc identity derivedRole =>
    simp only [run, loginOrProvisionOidc] at h
    cases derivedRole with
    | none => cases h
    | some role =>
    rcases hfind : state.users.find? (oidcUser identity) with _ | user <;> rw [hfind] at h
    · dsimp only at h
      split_ifs at h
      cases h
      simp [admitOidc, aged, hfind, pushSession]
    dsimp only at h
    split_ifs at h
    cases h
    by_cases hrole : user.role = role
    · simp [admitOidc, aged, hfind, hrole, pushSession]
    · simp [admitOidc, aged, hfind, hrole, pushSession, revokeUserSessions, assignRole,
        Ne.symm hrole]

/-! ## Tokens -/

theorem forall_add_le_iff {secs : UInt64} :
    (∀ shorter ≤ secs, createdAt + shorter ≤ createdAt + secs) ↔
      createdAt.toNat + secs.toNat < 2 ^ 64 := by
  have hcreated := createdAt.toNat_lt
  have hsecs := secs.toNat_lt
  constructor
  · intro h
    by_contra hwraps
    -- the shorter lifetime ends at the last second there is
    have hlast : (18446744073709551615 - createdAt : UInt64).toNat =
        2 ^ 64 - 1 - createdAt.toNat := by
      rw [UInt64.toNat_sub_of_le _ _ (UInt64.le_iff_toNat_le.2 (Nat.le_sub_one_of_lt hcreated))]
      rfl
    have hle := h (18446744073709551615 - createdAt) (by rw [UInt64.le_iff_toNat_le]; omega)
    rw [UInt64.le_iff_toNat_le, UInt64.toNat_add, UInt64.toNat_add] at hle
    omega
  · intro h shorter hle
    rw [UInt64.le_iff_toNat_le] at hle ⊢
    rw [UInt64.toNat_add, UInt64.toNat_add]
    omega

theorem createApiToken_lifetime {session : Session} {name : String} {role : Role}
    {filesystem : Option String} {secs : Option UInt64} {allowedIps : List String}
    {new : NewToken} {state next : AuthState} {stored : ApiToken}
    (h : createApiToken session name role filesystem secs allowedIps new state =
      .ok (stored, next)) (lifetime : Option UInt64) :
    ∃ next', createApiToken session name role filesystem lifetime allowedIps new state =
      .ok ({ stored with expiresAt := lifetime.map (new.createdAt + ·) }, next') := by
  obtain ⟨u, hadmin, h⟩ := bind_eq_ok.1 h
  obtain ⟨v, hrole, h⟩ := bind_eq_ok.1 h
  obtain ⟨w, hfree, h⟩ := bind_eq_ok.1 h
  cases h
  exact ⟨_, bind_eq_ok.2 ⟨u, hadmin, bind_eq_ok.2 ⟨v, hrole,
    bind_eq_ok.2 ⟨w, hfree, rfl⟩⟩⟩⟩

/-- **Times.** Logins and `validate` treat ages rightly just if no session is from the future, and a
token's sum just if it does not wrap. -/
theorem timestamps_right_iff (hashToken : String → String) (state : AuthState) (now : UInt64) :
    (∀ (l : Login) token next, l.run now state = .ok (token, next) →
      ((∃ new, next.sessions = (l.aged state).filter (fresh now) ++ [new]) ∧
          (∀ s ∈ l.aged state, SubExact now s.createdAt) ↔
        ∀ s ∈ l.aged state, s.createdAt ≤ now)) ∧
    (∀ token clientIp session, state.sessions.find? (·.token = token) = some session →
      ((validate hashToken token clientIp now state ≠ .error .tokenExpired ↔ fresh now session) ∧
          SubExact now session.createdAt ↔ session.createdAt ≤ now)) ∧
    ∀ session name role filesystem secs allowedIps new stored next,
      createApiToken session name role filesystem (some secs) allowedIps new state =
        .ok (stored, next) →
      ((∀ shorter ≤ secs, ∀ stored' next',
          createApiToken session name role filesystem (some shorter) allowedIps new state =
            .ok (stored', next') → ∀ e ∈ stored.expiresAt, ∀ e' ∈ stored'.expiresAt, e' ≤ e) ∧
          (∀ e ∈ stored.expiresAt, e.toNat = new.createdAt.toNat + secs.toNat) ↔
        new.createdAt.toNat + secs.toNat < 2 ^ 64) := by
  refine ⟨fun l token next h => ?_, fun token clientIp session h => ?_, ?_⟩
  · obtain ⟨new, hnext⟩ := Login.sessions_of_run h
    constructor
    · exact fun hexact s hs => subExact_iff.1 (hexact.2 s hs)
    · exact fun hle => ⟨⟨new, by rw [hnext, pruneSessions_eq hle]⟩,
        fun s hs => subExact_iff.2 (hle s hs)⟩
  · rw [← subExact_iff, and_iff_right_iff_imp]
    intro hexact
    rw [← hexact.fresh_iff, validate, h]
    dsimp only
    split_ifs with hold hip <;> simpa using hold
  intro session name role filesystem secs allowedIps new stored next h
  have hexpires {lifetime stored' next'} (h' : createApiToken session name role filesystem
      (some lifetime) allowedIps new state = .ok (stored', next')) :
      stored'.expiresAt = some (new.createdAt + lifetime) := by
    obtain ⟨_, heq⟩ := createApiToken_lifetime h' (some lifetime)
    rw [h', ok.injEq, Prod.mk.injEq] at heq
    rw [heq.1]
    rfl
  rw [hexpires h]
  constructor
  · rintro ⟨hshorter, -⟩
    refine forall_add_le_iff.1 fun shorter hle => ?_
    obtain ⟨next', h'⟩ := createApiToken_lifetime h (some shorter)
    exact hshorter shorter hle _ next' h' _ rfl _ rfl
  intro hsum
  constructor
  · intro shorter hle stored' next' h'
    rw [hexpires h']
    rintro _ ⟨⟩ _ ⟨⟩
    exact forall_add_le_iff.2 hsum shorter hle
  · rintro _ ⟨⟩
    rw [UInt64.toNat_add, Nat.mod_eq_of_lt hsum]

def clockSession : Session := newSession "t" "root" .admin none 1001 false "10.0.0.1"

def clockState : AuthState := { bootstrapped "h" with sessions := [clockSession] }

def clockToken (secs : UInt64) : Option UInt64 :=
  match createApiToken clockSession "ci" .operator none (some secs) [] ⟨"1", "h", 1000⟩
      clockState with
  | .ok (stored, _) => stored.expiresAt
  | .error _ => none

/-- The clock is set back by a second: the session is refused and then deleted. A token made for as
long as can be has expired at once. -/
theorem timestamps_wrap :
    (fresh 1000 clockSession ∧ validate id "t" "10.0.0.1" 1000 clockState = .error .tokenExpired) ∧
    (∃ next, (Login.webauthn "admin" "10.0.0.2" "u").run 1000 clockState = .ok ("u", next) ∧
      clockSession ∈ (Login.webauthn "admin" "10.0.0.2" "u").aged clockState ∧
      clockSession ∉ next.sessions) ∧
    clockToken 1 = some 1001 ∧ clockToken 18446744073709551615 = some 999 := by
  refine ⟨by decide, ⟨_, rfl, by decide, by decide⟩, by decide, by decide⟩

end Nasty.Auth
