import Nasty.Auth.Oidc
import Nasty.Sharing.Remap

/-!
# The role of an OIDC login

A login takes the name of the groups claim apart at its dots and walks down the payload, one object
after the other. The dry run of `auth.oidc.test` looks up the whole name at once. The two meet where
the name has no dot (`dry_run_agrees_iff`).
-/

namespace Nasty.Auth.Oidc

open Sharing.Remap (Json)

/-! ## The login -/

/-- Where the path leads; none if something on the way is no object. -/
def walk : List (List Char) → Json → Option Json
  | [], cur => some cur
  | segment :: rest, .obj fields => walk rest ((fields.lookup segment).getD .null)
  | _ :: _, _ => none

def texts (items : List Json) : List String := (items.filterMap Json.asStr).map String.ofList

def extractGroups (payload : Json) (claimPath : String) : List String :=
  match walk (Text.split '.' claimPath.toList) payload with
  | some (.arr items) => texts items
  | some (.str text) => [String.ofList text]
  | _ => []

def loginRole (payload : Json) (settings : OidcSettings) : Option String :=
  roleForGroups (extractGroups payload settings.groupsClaim) settings

/-! ## The dry run -/

def dryRunRole (sampleClaims : Json) (settings : OidcSettings) : Except String (Option String) :=
  match sampleClaims.get settings.groupsClaim with
  | some (.arr items) => .ok (roleForGroups (texts items) settings)
  | some (.str text) => .ok (roleForGroups [String.ofList text] settings)
  | some _ => .error s!"claim `{settings.groupsClaim}` is not a string or array of strings"
  | none => .ok (roleForGroups [] settings)

/-- The dry run reports the role that a login gets. Where it reports an error, a login has no
groups. -/
def Agrees (payload : Json) (settings : OidcSettings) : Prop :=
  (∀ role, dryRunRole payload settings = .ok role → loginRole payload settings = role) ∧
    ∀ e, dryRunRole payload settings = .error e → extractGroups payload settings.groupsClaim = []

/-! ## Where they meet -/

theorem extractGroups_of_not_mem {claim : String} (h : '.' ∉ claim.toList) (payload : Json) :
    extractGroups payload claim =
      match payload.get claim with
      | some (.arr items) => texts items
      | some (.str text) => [String.ofList text]
      | _ => [] := by
  unfold extractGroups
  rw [Text.split_of_not_mem h]
  cases payload with
  | obj fields =>
    rw [walk, Json.get]
    cases fields.lookup claim.toList with
    | none => rfl
    | some value => cases value <;> rfl
  | _ => rfl

theorem agrees_of_not_mem {payload : Json} {settings : OidcSettings}
    (h : '.' ∉ settings.groupsClaim.toList) : Agrees payload settings := by
  unfold Agrees loginRole dryRunRole
  rw [extractGroups_of_not_mem h]
  cases payload.get settings.groupsClaim with
  | none => exact ⟨fun role hrole => Except.ok.inj hrole, fun e he => by cases he⟩
  | some value =>
    cases value with
    | arr | str => exact ⟨fun role hrole => Except.ok.inj hrole, fun e he => by cases he⟩
    | _ => exact ⟨fun role hrole => (by cases hrole), fun _ _ => rfl⟩

/-- A payload with one field: a path that starts elsewhere leads to nothing. -/
theorem extractGroups_of_mem {claim : String} (h : '.' ∈ claim.toList) (value : Json) :
    extractGroups (.obj [(claim.toList, value)]) claim = [] := by
  obtain ⟨⟨first, behind⟩, hsplit⟩ :=
    Option.ne_none_iff_exists'.1 (mt Text.splitOnce_eq_none.1 (not_not.2 h))
  obtain ⟨hclaim, hfirst⟩ := Text.splitOnce_eq_some.1 hsplit
  have hpieces : Text.split '.' claim.toList = first :: Text.split '.' behind := by
    rw [hclaim, Text.split, Text.splitBy_append (by decide), ← Text.split,
      Text.split_of_not_mem hfirst]
    rfl
  -- the first segment is shorter than the name, and its value `null` is no object
  have hne : claim.toList ≠ first := by
    intro heq
    have hlength := congrArg List.length (heq.symm.trans hclaim)
    simp at hlength
  obtain ⟨second, rest, hbehind⟩ :=
    List.exists_cons_of_ne_nil (Text.splitBy_ne_nil (· = '.') behind)
  have hlookup : [(claim.toList, value)].lookup first = none := by
    simpa using hne.symm
  rw [extractGroups, hpieces, walk, hlookup, Text.split, hbehind]
  rfl

def adminsOf (claim : String) : OidcSettings where
  enabled := true
  issuerUrl := none
  clientId := none
  clientSecret := none
  clientSecretEncrypted := none
  redirectUri := none
  scopes := defaultOidcScopes
  groupsClaim := claim
  roleMappings := [("nas-admins", "admin")]
  defaultRole := none
  autoProvision := true

/-- **The dry run.** It agrees with the login exactly if the name of the groups claim has no dot. -/
theorem dry_run_agrees_iff (claim : String) :
    (∀ payload settings, settings.groupsClaim = claim → Agrees payload settings) ↔
      '.' ∉ claim.toList := by
  constructor
  · intro h hdot
    -- the groups are at the name itself, where no login looks for them
    have hgroups := extractGroups_of_mem hdot (.str "nas-admins".toList)
    have hrole := (h (.obj [(claim.toList, .str "nas-admins".toList)]) (adminsOf claim) rfl).1
      (some "admin") (by simp [dryRunRole, Json.get, adminsOf, roleForGroups])
    rw [loginRole, show (adminsOf claim).groupsClaim = claim from rfl, hgroups] at hrole
    cases hrole
  · rintro hdot payload settings rfl
    exact agrees_of_not_mem hdot

/-- `{"realm_access": {"roles": ["nas-admins"]}}`: a login makes an administrator, and the dry run
reports no role. -/
theorem nested_claim_missed :
    let payload : Json := .obj [("realm_access".toList,
      .obj [("roles".toList, .arr [.str "nas-admins".toList])])]
    let settings := adminsOf "realm_access.roles"
    loginRole payload settings = some "admin" ∧ dryRunRole payload settings = .ok none ∧
      ¬ Agrees payload settings := by
  have hlogin : loginRole (.obj [("realm_access".toList,
      .obj [("roles".toList, .arr [.str "nas-admins".toList])])])
      (adminsOf "realm_access.roles") = some "admin" := by decide
  refine ⟨hlogin, rfl, fun h => ?_⟩
  cases hlogin.symm.trans (h.1 none rfl)

end Nasty.Auth.Oidc
