import Nasty.Auth.Names

/-!
# Sessions and the roles of their users

A session carries the role its user had when it was minted, so whatever changes a role has to
revoke the sessions of the old one. A login by password mints from the record it read before the
password check, and checks again only the name and the hash: it is safe when the role and the
principal are still those it read.
-/

namespace Nasty.Auth

open Lts List

/-- The session is the user's and, where `current` is asked, has its role and principal. -/
def Session.Of (current : Prop) (s : Session) (u : User) : Prop :=
  u.username = s.username ∧ (current → u.role = s.role ∧
    boundPrincipal u.role u.filePrincipal = s.filePrincipal)

/-- Every session is one of its user. -/
def SessionsOf (current : Prop) (s : AuthState) : Prop :=
  ∀ session ∈ s.sessions, ∃ u ∈ s.users, session.Of current u

/-- A login about to mint finds the role and the principal it read, if it finds the hash. -/
def roleUnchanged (w : World) : Event → Bool
  | .loginMint call _ _ =>
    match w.calls[call]? with
    | some (.verified username _ _ user) =>
      w.auth.users.all fun u =>
        (u.username = username ∧ u.passwordHash = user.passwordHash) →
          u.role = user.role ∧
            boundPrincipal u.role u.filePrincipal = boundPrincipal user.role user.filePrincipal
    | _ => true
  | _ => true

def CurrentStep (env : Env) (w : World) (e : Event) (w' : World) : Prop :=
  roleUnchanged w e ∧ Step env w e w'

def CallsNamed (w : World) : Prop :=
  ∀ username clientIp now user, .verified username clientIp now user ∈ w.calls →
    user.username = username

variable {env : Env} {w w' : World} {e : Event} {es : List Event} {t : AuthState} {hash : String}

theorem CallsNamed.eraseIdx (h : CallsNamed w) (call : ℕ) :
    CallsNamed { w with calls := w.calls.eraseIdx call } := by
  intro username clientIp now user hmem
  exact h username clientIp now user (mem_of_mem_eraseIdx hmem)

theorem callsNamed_loginRead {call username password clientIp now} (h : CallsNamed w) :
    CallsNamed (loginRead env w call username password clientIp now) := by
  unfold loginRead
  split
  · exact h.eraseIdx call
  next user hfind =>
  split
  · exact h.eraseIdx call
  split
  · intro username' clientIp' now' user' hmem
    rcases mem_or_eq_of_mem_set hmem with hmem | heq
    · exact h username' clientIp' now' user' hmem
    · obtain ⟨rfl, -, -, rfl⟩ := Call.verified.inj heq
      simpa using find?_some hfind
  · exact h.eraseIdx call

theorem CallsNamed.append {call : Call} (h : CallsNamed w)
    (hcall : ∀ username clientIp now user, .verified username clientIp now user ≠ call) :
    CallsNamed { w with calls := w.calls ++ [call] } := by
  intro username clientIp now user hmem
  rcases mem_append.1 hmem with hmem | hmem
  · exact h username clientIp now user hmem
  · exact absurd (mem_singleton.1 hmem) (hcall username clientIp now user)

theorem callsNamed_exec (h : CallsNamed w) : CallsNamed (w.exec env e) := by
  cases e with
  | loginStart | webauthnStart =>
    dsimp only [World.exec]
    split
    · exact h
    · exact h.append nofun
  | loginRead =>
    dsimp only [World.exec]
    split
    · exact callsNamed_loginRead h
    · exact h
  | loginMint call =>
    dsimp only [World.exec]
    split
    · unfold loginMint
      dsimp only
      split <;> exact h.eraseIdx call
    · exact h
  | webauthnMint call =>
    dsimp only [World.exec]
    split
    · unfold webauthnMint
      dsimp only
      split <;> exact h.eraseIdx call
    · exact h
  | validate | dropExpired =>
    dsimp only [World.exec]
    split <;> exact h
  | _ => exact h

variable {current : Prop}

theorem SessionsOf.push {s : AuthState} {now : UInt64} {session : Session} {u : User}
    (h : SessionsOf current s) (hu : u ∈ s.users) (hof : session.Of current u) :
    SessionsOf current (pushSession s now session) :=
  forall_mem_append.2 ⟨fun session' hmem => h session' (mem_of_mem_filter hmem),
    forall_mem_singleton.2 ⟨u, hu, hof⟩⟩

theorem mem_revokeSessionsAfterPasswordChange {sessions : List Session}
    {username actor token : String} {s : Session}
    (h : s ∈ revokeSessionsAfterPasswordChange sessions username actor token) :
    ∃ s' ∈ sessions, s'.username = s.username ∧ s'.role = s.role ∧
      s'.filePrincipal = s.filePrincipal := by
  unfold revokeSessionsAfterPasswordChange at h
  dsimp only at h
  split at h
  · obtain ⟨s', hs', heq⟩ := exists_of_mem_modifyFirst
      (g := fun s : Session => (s.username, s.role, s.filePrincipal)) h fun _ => rfl
    obtain ⟨hname, heq⟩ := Prod.mk.inj heq
    obtain ⟨hrole, hprincipal⟩ := Prod.mk.inj heq
    exact ⟨s', mem_of_mem_filter hs', hname, hrole, hprincipal⟩
  · exact ⟨s, mem_of_mem_filter h, rfl, rfl, rfl⟩

theorem SessionsOf.effect (h : SessionsOf current w.auth) (hcalls : CallsNamed w)
    (hcurrent : current → roleUnchanged w e) (he : Effect w e t) : SessionsOf current t := by
  cases he with
  | unchanged | tokenCreated | tokenDeleted => exact h
  | fewerSessions sessions hsub => exact fun s hs => h s (hsub hs)
  | loggedIn username clientIp now user hcall hchecked =>
    obtain ⟨u, hu, hname, hhash⟩ := hchecked
    dsimp only [roleUnchanged] at hcurrent
    rw [hcall] at hcurrent
    have huser := hcalls username clientIp now user (mem_of_getElem? hcall)
    exact h.push hu ⟨hname.trans huser.symm, fun hc =>
      of_decide_eq_true (all_eq_true.1 (hcurrent hc) u hu) ⟨hname, hhash⟩⟩
  | minted user token clientIp now hmem => exact h.push hmem ⟨rfl, fun _ => ⟨rfl, rfl⟩⟩
  | roleChanged user p role token clientIp now hfind =>
    refine SessionsOf.push (fun s hs => ?_) (mem_modifyFirst_of_find? hfind)
      ⟨rfl, fun _ => ⟨rfl, rfl⟩⟩
    obtain ⟨hs, hne⟩ := mem_filter.1 hs
    obtain ⟨u, hu, hof⟩ := h s hs
    refine ⟨u, (mem_modifyFirst_of_mem hu).resolve_right fun hfound => ?_, hof⟩
    cases hfind.symm.trans hfound
    exact absurd hof.1.symm (by simpa using hne)
  | provisioned hrole hnew user =>
    refine SessionsOf.push (fun s hs => ?_)
      (mem_append_right _ (mem_singleton_self user)) ⟨rfl, fun _ => ⟨rfl, rfl⟩⟩
    obtain ⟨u, hu, hof⟩ := h s hs
    exact ⟨u, mem_append_left _ hu, hof⟩
  | passwordChanged username hash actor token =>
    intro s hs
    obtain ⟨s', hs', hname, hrole, hprincipal⟩ := mem_revokeSessionsAfterPasswordChange hs
    obtain ⟨u, hu, hname', hof'⟩ := h s' hs'
    have hof : s.Of current u := ⟨hname'.trans hname, fun hc =>
      ⟨(hof' hc).1.trans hrole, (hof' hc).2.trans hprincipal⟩⟩
    rcases mem_modifyFirst_of_mem hu with hu | hfind
    · exact ⟨u, hu, hof⟩
    · exact ⟨_, mem_modifyFirst_of_find? hfind, hof⟩
  | userCreated user =>
    intro s hs
    obtain ⟨u, hu, hof⟩ := h s hs
    exact ⟨u, mem_append_left _ hu, hof⟩
  | userDeleted username =>
    intro s hs
    obtain ⟨hs, hne⟩ := mem_filter.1 hs
    obtain ⟨u, hu, hof⟩ := h s hs
    refine ⟨u, mem_filter.2 ⟨hu, ?_⟩, hof⟩
    rw [hof.1]
    exact hne

/-- **Current roles.** If no login mints a role or principal that has changed since it was read,
every session has those of its user. -/
theorem sessions_current (hrun : Run (CurrentStep env) (.bootstrapped hash) es w) :
    ∀ session ∈ w.auth.sessions, ∃ u ∈ w.auth.users, u.username = session.username ∧
      (∀ v ∈ w.auth.users, v.username = session.username → v = u) ∧
      u.role = session.role ∧
      (session.role = .user → u.filePrincipal = session.filePrincipal) := by
  obtain ⟨hdistinct, -, hcurrent⟩ := hrun.inv
    (I := fun w => Distinct w.auth ∧ CallsNamed w ∧ SessionsOf True w.auth)
    ⟨distinct_bootstrapped, fun _ _ _ _ h => absurd h not_mem_nil,
      fun _ h => absurd h not_mem_nil⟩ fun w e w' ⟨hd, hc, hs⟩ ⟨hsame, hstep⟩ =>
      ⟨hd.step hstep, hstep ▸ callsNamed_exec hc,
        hstep ▸ hs.effect hc (fun _ => hsame) (effect_exec env w e)⟩
  intro session hmem
  obtain ⟨u, hu, hname, hof⟩ := hcurrent session hmem
  obtain ⟨hrole, hprincipal⟩ := hof trivial
  refine ⟨u, hu, hname, fun v hv hname' => ?_, hrole, fun huser => ?_⟩
  · exact inj_on_of_nodup_map hdistinct.usernames hv hu (hname'.trans hname.symm)
  · rwa [boundPrincipal, if_pos (hrole.trans huser)] at hprincipal

theorem sessions_current_first_login : let e₁ := .loginStart "admin" "admin" "10.0.0.1" 100
    let e₂ := .loginRead 0
    let e₃ := .loginMint 0 "t1" .saved
    let w := [e₁, e₂, e₃].foldl (World.exec .plain) (.bootstrapped "argon2:admin")
    Run (CurrentStep .plain) (.bootstrapped "argon2:admin") [e₁, e₂, e₃] w ∧
      w.auth.sessions = [newSession "t1" "admin" .admin none 100 true "10.0.0.1"] ∧
      ∀ session ∈ w.auth.sessions, ∃ u ∈ w.auth.users, u.role = session.role := by
  intro e₁ e₂ e₃ w
  have hrun : Run (CurrentStep .plain) (.bootstrapped "argon2:admin") ([] ++ [e₁] ++ [e₂] ++ [e₃])
      (World.exec .plain (World.exec .plain (World.exec .plain (.bootstrapped "argon2:admin") e₁)
        e₂) e₃) :=
    .snoc (.snoc (.snoc .nil ⟨by decide, rfl⟩) ⟨by decide, rfl⟩) ⟨by decide, rfl⟩
  refine ⟨hrun, by decide, fun session hmem => ?_⟩
  obtain ⟨u, hu, -, -, hrole, -⟩ := sessions_current hrun session hmem
  exact ⟨u, hu, hrole⟩

/-- While the password of an administrator is checked, an OIDC login takes the role away. -/
def overtakenLogin : List Event :=
  let bob : OidcIdentity :=
    { issuer := "https://idp", subject := "42", email := none, preferredUsername := some "bob" }
  [.loginOrProvisionOidc bob (some .admin) true "10.0.0.2" "t1" 100 .saved,
   .changePassword (newSession "t1" "bob" .admin none 100 false "10.0.0.2") "bob"
     "correct horse" (.ok "argon2:correct horse") .saved,
   .loginStart "bob" "correct horse" "10.0.0.3" 101, .loginRead 0,
   .loginOrProvisionOidc bob (some .readOnly) true "10.0.0.2" "t2" 101 .saved,
   .loginMint 0 "t3" .saved]

/-- The login is left with a session of the role its user no longer has. -/
theorem stale_session : ∃ es w, Run (Step .plain) (.bootstrapped "argon2:admin") es w ∧
    ∃ session ∈ w.auth.sessions, session.role = .admin ∧
      ∀ u ∈ w.auth.users, u.username = session.username → u.role = .readOnly := by
  refine ⟨overtakenLogin, _, run_exec _ _ _, ?_⟩
  decide

/-! ## Deleted users -/

/-- **No session without its user.** A deletion leaves none of the user's sessions, and no login in
flight brings one back. -/
theorem sessions_owned (hrun : Run (Step env) (.bootstrapped hash) es w) :
    ∀ session ∈ w.auth.sessions, ∃ u ∈ w.auth.users, u.username = session.username := by
  have hinv : CallsNamed w ∧ SessionsOf False w.auth := by
    refine hrun.inv (I := fun w => CallsNamed w ∧ SessionsOf False w.auth)
      ⟨fun _ _ _ _ h => absurd h not_mem_nil, fun _ h => absurd h not_mem_nil⟩ ?_
    rintro w e _ ⟨hcalls, howned⟩ rfl
    exact ⟨callsNamed_exec hcalls, howned.effect hcalls nofun (effect_exec env w e)⟩
  intro session hmem
  obtain ⟨u, hu, hname, -⟩ := hinv.2 session hmem
  exact ⟨u, hu, hname⟩

theorem sessions_owned_overtaken :
    let w := overtakenLogin.foldl (World.exec .plain) (.bootstrapped "argon2:admin")
    ∀ session ∈ w.auth.sessions, ∃ u ∈ w.auth.users, u.username = session.username :=
  sessions_owned (run_exec _ _ _)

end Nasty.Auth
