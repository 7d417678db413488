import Nasty.Auth.Service

/-!
# Distinct names

Users and API tokens share one space of names. The operations that add to it check it, except that
`pickUsername` looks at the users only: a user provisioned by an OIDC login may take the name of an
API token.
-/

namespace Nasty.Auth

open Lts List

/-! ## The picked name -/

theorem candidate_injective (base : String) : Function.Injective (candidate base) := by
  intro m n h
  have hrepr : m.repr = n.repr := by simpa [candidate] using h
  exact Text.toDigits_inj (by omega) (by omega) (String.ofList_injective hrepr)

/-- The name is the base if that is free, and else its first free candidate from 2 on. -/
def IsFirstFree (taken : List String) (base name : String) : Prop :=
  (base ∉ taken ∧ name = base) ∨
    (base ∈ taken ∧ ∃ n, 2 ≤ n ∧ name = candidate base n ∧ candidate base n ∉ taken ∧
      ∀ m, 2 ≤ m → m < n → candidate base m ∈ taken)

theorem IsFirstFree.not_mem {taken : List String} {base name : String}
    (h : IsFirstFree taken base name) : name ∉ taken := by
  rcases h with ⟨hfree, rfl⟩ | ⟨-, n, -, rfl, hfree, -⟩ <;> exact hfree

/-- `pickUsername` counts on until it finds a free name, and it finds one. -/
theorem pickUsername_isFirstFree (users : List User) (identity : OidcIdentity) :
    IsFirstFree (users.map (·.username)) (baseUsername identity) (pickUsername users identity) := by
  unfold pickUsername
  by_cases hbase : baseUsername identity ∉ users.map (·.username)
  · rw [if_pos hbase]
    exact .inl ⟨hbase, rfl⟩
  rw [if_neg hbase, find?_map]
  rcases hfind : (List.range' 2 (users.length + 1)).find?
    ((fun name => decide (name ∉ users.map (·.username))) ∘ candidate (baseUsername identity))
    with _ | n
  · obtain ⟨k, hk, hfree⟩ := exists_not_mem_of_injective
      (candidate_injective (baseUsername identity)) (users.map (·.username)) 2
    rw [length_map] at hk
    have htaken := find?_eq_none.1 hfind k hk
    exact absurd hfree (by simpa using htaken)
  obtain ⟨hn, hmem, hbefore⟩ := find?_range'_eq_some.1 hfind
  rw [mem_range'_1] at hmem
  refine .inr ⟨not_not.1 hbase, n, hmem.1, ?_, by simpa using hn, fun m h2 hm => ?_⟩
  · rw [hfind, Option.map_some, Option.getD_some]
  · simpa using hbefore m h2 hm

/-! ## Every run -/

def User.oidcKey (u : User) : Option String × Option String := (u.oidcSubject, u.oidcIssuer)

/-- Both parts of the key are set, and they are those of another user. -/
def SameIdentity (a b : Option String × Option String) : Prop :=
  a.1.isSome ∧ a.2.isSome ∧ a = b

structure Distinct (s : AuthState) : Prop where
  usernames : (s.users.map (·.username)).Nodup
  tokenNames : (s.apiTokens.map (·.name)).Nodup
  identities : (s.users.map User.oidcKey).Pairwise fun a b => ¬ SameIdentity a b

variable {env : Env} {w w' : World} {e : Event} {es : List Event} {t : AuthState} {hash : String}

variable {s : AuthState} {user : User}

theorem Distinct.congr (h : Distinct s)
    (hnames : t.users.map (·.username) = s.users.map (·.username))
    (hkeys : t.users.map User.oidcKey = s.users.map User.oidcKey)
    (htokens : t.apiTokens = s.apiTokens) : Distinct t :=
  ⟨hnames ▸ h.usernames, htokens ▸ h.tokenNames, hkeys ▸ h.identities⟩

theorem Distinct.addUser (h : Distinct s) (hname : user.username ∉ s.users.map (·.username))
    (hidentity : ∀ u ∈ s.users, ¬ SameIdentity u.oidcKey user.oidcKey) :
    Distinct { s with users := s.users ++ [user] } := by
  refine ⟨?_, h.tokenNames, ?_⟩
  · show ((s.users ++ [user]).map (·.username)).Nodup
    rw [map_append]
    refine List.Pairwise.concat h.usernames ?_
    rintro _ hmem rfl
    exact hname hmem
  show ((s.users ++ [user]).map User.oidcKey).Pairwise _
  rw [map_append]
  refine h.identities.concat fun key hmem => ?_
  obtain ⟨u, hu, rfl⟩ := mem_map.1 hmem
  exact hidentity u hu

theorem Distinct.effect (h : Distinct w.auth) (he : Effect w e t) : Distinct t := by
  cases he with
  | unchanged | fewerSessions | loggedIn | minted => exact h.congr rfl rfl rfl
  | roleChanged | passwordChanged =>
    refine h.congr ?_ ?_ rfl <;> exact map_modifyFirst (fun _ => by rfl) _
  | @provisioned identity _ _ _ _ _ _ hnew user hname _ hoidc =>
    have hdistinct : Distinct { w.auth with users := w.auth.users ++ [user] } := by
      refine h.addUser ?_ fun u hu hsame => ?_
      · rw [hname]
        exact (pickUsername_isFirstFree w.auth.users identity).not_mem
      · -- a user of the identity would have been found
        obtain ⟨hsubject, hissuer⟩ := Prod.mk.inj (hsame.2.2.trans hoidc)
        exact find?_eq_none.1 hnew u hu (by simp [oidcUser, hsubject, hissuer])
    exact hdistinct.congr rfl rfl rfl
  | userCreated user hname htoken hoidc =>
    refine h.addUser ?_ fun u hu hsame => ?_
    · rintro hmem
      obtain ⟨u, hu, heq⟩ := mem_map.1 hmem
      exact hname u hu heq
    · rw [hsame.2.2] at hsame
      simp [SameIdentity, User.oidcKey, hoidc] at hsame
  | userDeleted username =>
    exact ⟨h.usernames.sublist (filter_sublist.map _), h.tokenNames,
      h.identities.sublist (filter_sublist.map _)⟩
  | tokenCreated token htoken hname =>
    refine ⟨h.usernames, ?_, h.identities⟩
    show ((w.auth.apiTokens ++ [token]).map (·.name)).Nodup
    rw [map_append]
    refine List.Pairwise.concat h.tokenNames fun name hmem heq => ?_
    obtain ⟨u, hu, rfl⟩ := mem_map.1 hmem
    exact htoken u hu heq
  | tokenDeleted id =>
    exact ⟨h.usernames, h.tokenNames.sublist (filter_sublist.map _), h.identities⟩

theorem Distinct.step (h : Distinct w.auth) (hstep : Step env w e w') : Distinct w'.auth := by
  rw [← hstep]
  exact h.effect (effect_exec env w e)

theorem distinct_bootstrapped : Distinct (bootstrapped hash) :=
  ⟨nodup_singleton _, nodup_nil, pairwise_singleton _ _⟩

def NamesDisjoint (s : AuthState) : Prop :=
  (s.users.map (·.username)).Disjoint (s.apiTokens.map (·.name))

/-- An OIDC login about to provision a user does not find its name among the API tokens. -/
def NameFree (w : World) : Event → Prop
  | .loginOrProvisionOidc identity (some role) true _ _ _ _ =>
    role ≠ .user → (∀ u ∈ w.auth.users, ¬ oidcUser identity u) → ∀ name,
      IsFirstFree (w.auth.users.map (·.username)) (baseUsername identity) name →
        name ∉ w.auth.apiTokens.map (·.name)
  | _ => True

def NamingStep (env : Env) (w : World) (e : Event) (w' : World) : Prop :=
  NameFree w e ∧ Step env w e w'

theorem NamesDisjoint.addUser (h : NamesDisjoint s)
    (hname : user.username ∉ s.apiTokens.map (·.name)) :
    NamesDisjoint { s with users := s.users ++ [user] } := by
  show ((s.users ++ [user]).map (·.username)).Disjoint _
  rw [map_append]
  exact disjoint_append_left.2 ⟨h, singleton_disjoint.2 hname⟩

theorem NamesDisjoint.effect (h : NamesDisjoint w.auth) (hfree : NameFree w e)
    (he : Effect w e t) : NamesDisjoint t := by
  cases he with
  | unchanged | fewerSessions | loggedIn | minted => exact h
  | roleChanged | passwordChanged =>
    show ((w.auth.users.modifyFirst _ _).map User.username).Disjoint _
    rw [map_modifyFirst fun _ => by rfl]
    exact h
  | @provisioned identity _ _ _ _ _ hrole hnew user hname =>
    refine h.addUser ?_
    rw [hname]
    exact hfree hrole (find?_eq_none.1 hnew) _ (pickUsername_isFirstFree _ _)
  | userCreated user hname htoken =>
    refine h.addUser fun hmem => ?_
    obtain ⟨token, hmem, heq⟩ := mem_map.1 hmem
    exact htoken token hmem heq
  | userDeleted => exact disjoint_of_subset_left (filter_sublist.map _).subset h
  | tokenCreated token _ hname =>
    show List.Disjoint _ ((w.auth.apiTokens ++ [token]).map (·.name))
    rw [map_append]
    refine disjoint_append_right.2 ⟨h, disjoint_singleton.2 fun hmem => ?_⟩
    obtain ⟨u, hu, heq⟩ := mem_map.1 hmem
    exact hname u hu heq
  | tokenDeleted => exact disjoint_of_subset_right (filter_sublist.map _).subset h

/-- **Distinct names.** If no user is provisioned under the name of an API token, all names and all
OIDC identities stay distinct. -/
theorem names_distinct (hrun : Run (NamingStep env) (.bootstrapped hash) es w) :
    (w.auth.users.map (·.username)).Nodup ∧ (w.auth.apiTokens.map (·.name)).Nodup ∧
      (∀ u ∈ w.auth.users, ∀ token ∈ w.auth.apiTokens, u.username ≠ token.name) ∧
      w.auth.users.Pairwise fun u v => ¬ (u.oidcSubject.isSome ∧ u.oidcIssuer.isSome ∧
        (u.oidcSubject, u.oidcIssuer) = (v.oidcSubject, v.oidcIssuer)) := by
  obtain ⟨hdistinct, hdisjoint⟩ := hrun.inv (I := fun w => Distinct w.auth ∧ NamesDisjoint w.auth)
    ⟨distinct_bootstrapped, fun _ _ h => not_mem_nil h⟩
    fun w e w' ⟨h, h'⟩ ⟨hfree, hstep⟩ =>
      ⟨h.step hstep, hstep ▸ h'.effect hfree (effect_exec env w e)⟩
  exact ⟨hdistinct.usernames, hdistinct.tokenNames,
    fun u hu token htoken heq => hdisjoint (mem_map_of_mem hu) (heq ▸ mem_map_of_mem htoken),
    pairwise_map.1 hdistinct.identities⟩

def tokenCreation : List Event :=
  [.loginStart "admin" "admin" "10.0.0.1" 100, .loginRead 0, .loginMint 0 "t1" .saved,
   .changePassword (newSession "t1" "admin" .admin none 100 true "10.0.0.1") "admin"
     "correct horse" (.ok "argon2:correct horse") .saved,
   .createApiToken (newSession "t1" "admin" .admin none 100 false "10.0.0.1") "backup" .operator
     none none [] ⟨"id", "sha256:t2", 101⟩ .saved]

def provisioning (name : String) : Event :=
  let identity : OidcIdentity :=
    { issuer := "https://idp", subject := "42", email := none, preferredUsername := some name }
  .loginOrProvisionOidc identity (some .readOnly) true "10.0.0.2" "t3" 102 .saved

theorem names_distinct_provisioned :
    let w := (tokenCreation ++ [provisioning "carol"]).foldl (World.exec .plain)
      (.bootstrapped "argon2:admin")
    w.auth.users.map (·.username) = ["admin", "carol"] ∧
      w.auth.apiTokens.map (·.name) = ["backup"] ∧
      ∀ u ∈ w.auth.users, ∀ token ∈ w.auth.apiTokens, u.username ≠ token.name := by
  have htoken : Run (NamingStep .plain) (.bootstrapped "argon2:admin") tokenCreation
      (tokenCreation.foldl (World.exec .plain) (.bootstrapped "argon2:admin")) :=
    ((run_exec _ _ _).restrict (P := NameFree) (by simp [tokenCreation, NameFree])).imp
      fun _ _ _ h => h.symm
  have hfree : NameFree (tokenCreation.foldl (World.exec .plain) (.bootstrapped "argon2:admin"))
      (provisioning "carol") := by
    rintro - - name (⟨-, rfl⟩ | ⟨htaken, -⟩)
    · decide
    · exact absurd htaken (by decide)
  exact ⟨by decide, by decide, (names_distinct (htoken.snoc ⟨hfree, rfl⟩)).2.2.1⟩

theorem provisioned_name_of_token : ∃ es w,
    Run (Step .plain) (.bootstrapped "argon2:admin") es w ∧
      ∃ u ∈ w.auth.users, ∃ token ∈ w.auth.apiTokens, u.username = token.name := by
  refine ⟨tokenCreation ++ [provisioning "backup"], _, run_exec _ _ _, ?_⟩
  decide

end Nasty.Auth
