import Nasty.Auth.State
import Nasty.Lib.Lts
import Nasty.Lib.Maps

/-!
# Single sign-on

The OIDC settings and the client built from them are two copies: `auth.oidc.update_config` stores
the settings, builds a client from them, which needs the network, and installs it. A callback
takes the installed client at its start and mints a session at its end. Others may run in between.

1. `World.exec` is one step of an update, of a sign-in or of a callback.
2. `Agreed`: where no update is underway, the client is one of the stored settings.
3. `mint_current`: for whom a session is minted, and that a state value is redeemed once.
-/

namespace Nasty.Auth.Oidc

open Lts List Function

inductive OidcError
  | notConfigured (field : String)
  | discovery (text : String)
  | config (text : String)
  | stateMismatch
  | tokenExchange (text : String)
  | tokenVerification (text : String)
  | missingIdToken

/-! ## Settings -/

structure OidcSettings where
  enabled : Bool
  issuerUrl : Option String
  clientId : Option String
  clientSecret : Option String
  clientSecretEncrypted : Option String
  redirectUri : Option String
  scopes : List String
  groupsClaim : String
  roleMappings : List (String × String)
  defaultRole : Option String
  autoProvision : Bool

def defaultOidcScopes : List String := ["openid", "profile", "email", "groups"]

def oidcSecretPlaceholder : String := "<unchanged>"

def nonEmpty (value : Option String) : Option String := value.filter (¬ ·.isEmpty)

/-- `encrypt` is the answer of `systemd-creds`. -/
def encryptOidcSecretInPlace (encrypt : String → Option String) (oidc : OidcSettings) :
    OidcSettings :=
  match oidc.clientSecretEncrypted, (nonEmpty oidc.clientSecret).bind encrypt with
  | none, some blob => { oidc with clientSecretEncrypted := some blob, clientSecret := none }
  | _, _ => oidc

def setOidc (encrypt : String → Option String) (stored incoming : OidcSettings) : OidcSettings :=
  let incoming :=
    if incoming.clientSecret = some oidcSecretPlaceholder then
      { incoming with
        clientSecret := stored.clientSecret
        clientSecretEncrypted := stored.clientSecretEncrypted }
    else { incoming with clientSecretEncrypted := none }
  let incoming :=
    if incoming.scopes.isEmpty then { incoming with scopes := defaultOidcScopes } else incoming
  encryptOidcSecretInPlace encrypt incoming

def resolveOidcClientSecret (decrypt : String → Option String) (oidc : OidcSettings) :
    Option String :=
  match oidc.clientSecretEncrypted with
  | some blob => decrypt blob
  | none => nonEmpty oidc.clientSecret

def roleForGroups (groups : List String) (settings : OidcSettings) : Option String :=
  match settings.roleMappings.find? (·.1 ∈ groups) with
  | some mapping => some mapping.2
  | none => nonEmpty settings.defaultRole

def parseRoleStr (s : String) : Option Role :=
  let s := (Text.trim s.toList).map Char.toLower
  if s = "admin".toList then some .admin
  else if s = "operator".toList then some .operator
  else if s ∈ ["readonly".toList, "read_only".toList, "read-only".toList] then some .readOnly
  else if s = "user".toList then some .user
  else none

/-! ## Clients -/

/-- The started sign-ins are shared by all holders of a client: `pending` names them. -/
structure OidcClient where
  issuer : String
  clientId : String
  clientSecret : Option String
  redirectUrl : String
  settings : OidcSettings
  pending : ℕ

structure Pending where
  pkceVerifierSecret : String
  nonce : String
  expiresAt : UInt64

def required (value : Option String) (field : String) : Except OidcError String :=
  match nonEmpty value with
  | some text => .ok text
  | none => .error (.notConfigured field)

/-- What a build gets from outside. A provider is accepted only under the issuer it was asked for.
-/
structure Provider where
  discover : String → Except OidcError Unit
  decrypt : String → Option String

def OidcClient.fromSettings (provider : Provider) (settings : OidcSettings) (pending : ℕ) :
    Except OidcError OidcClient := do
  let issuer ← required settings.issuerUrl "issuer_url"
  let clientId ← required settings.clientId "client_id"
  let redirectUrl ← required settings.redirectUri "redirect_uri"
  provider.discover issuer
  return { issuer, clientId, clientSecret := resolveOidcClientSecret provider.decrypt settings,
           redirectUrl, settings, pending }

def pendingTtlSecs : UInt64 := 5 * 60

def maxPending : ℕ := 1024

/-! ## Steps -/

inductive Call
  /-- An update that has stored its settings. -/
  | saved
  | rebuilding (settings : OidcSettings)
  | disabling
  | built (client : OidcClient)
  | authorizing (client : OidcClient)
  | callback (client : OidcClient) (state code : String)
  | exchanging (client : OidcClient) (pending : Pending) (code : String)
  | verified (client : OidcClient) (identity : OidcIdentity) (groups : List String)
  | minting (client : OidcClient) (identity : OidcIdentity) (derivedRole : Option Role)
      (autoProvision : Bool)

structure Minted where
  identity : OidcIdentity
  client : OidcClient
  stored : OidcSettings

structure World where
  stored : OidcSettings
  holder : Option OidcClient
  pending : ℕ → List (String × Pending)
  nextPending : ℕ
  auth : AuthState
  calls : ℕ → Option Call
  /-- The state values given out and redeemed so far, and the sessions minted. -/
  issued : List String
  redeemed : List String
  minted : List Minted

structure Claims where
  subject : String
  email : Option String
  preferredUsername : Option String
  groups : List String

def Claims.identity (claims : Claims) (client : OidcClient) : OidcIdentity where
  issuer := client.issuer
  subject := claims.subject
  email := claims.email
  preferredUsername := claims.preferredUsername

inductive Event
  | updateConfig (i : ℕ) (incoming : OidcSettings) (encrypt : String → Option String) (ok : Bool)
  | readSettings (i : ℕ)
  | build (i : ℕ) (provider : Provider)
  | install (i : ℕ)
  | authorize (i : ℕ)
  | authorizeUrl (i : ℕ) (csrf verifier nonce : String) (now : UInt64)
  | callback (i : ℕ) (state code : String)
  | redeem (i : ℕ) (now : UInt64)
  | exchange (i : ℕ) (result : Except OidcError Claims)
  | readRole (i : ℕ)
  | mint (i : ℕ) (clientIp token : String) (now : UInt64) (persist : Persist)

def World.put (w : World) (i : ℕ) (c : Option Call) : World :=
  { w with calls := update w.calls i c }

def World.enter (w : World) (i : ℕ) (w' : World) : Option World :=
  if (w.calls i).isNone then some w' else none

def World.exec (w : World) : Event → Option World
  | .updateConfig i incoming encrypt ok =>
    -- the settings are replaced in memory even where they cannot be saved
    w.enter i { w.put i (if ok then some .saved else none) with
      stored := setOidc encrypt w.stored incoming }
  | .readSettings i =>
    match w.calls i with
    | some .saved =>
      some (w.put i (some (if w.stored.enabled then .rebuilding w.stored else .disabling)))
    | _ => none
  | .build i provider =>
    match w.calls i with
    | some (.rebuilding settings) =>
      match OidcClient.fromSettings provider settings w.nextPending with
      | .ok client => some { w.put i (some (.built client)) with nextPending := w.nextPending + 1 }
      | .error _ => some (w.put i none)
    | _ => none
  | .install i =>
    match w.calls i with
    | some .disabling => some { w.put i none with holder := none }
    | some (.built client) => some { w.put i none with holder := some client }
    | _ => none
  | .authorize i => w.enter i (w.put i (w.holder.map .authorizing))
  | .authorizeUrl i csrf verifier nonce now =>
    match w.calls i with
    | some (.authorizing client) =>
      let pending := (w.pending client.pending).filter (now < ·.2.expiresAt)
      if pending.length ≥ maxPending then
        some { w.put i none with pending := update w.pending client.pending pending }
      -- the value is random and taken not to repeat
      else if csrf ∈ w.issued then none
      else some { w.put i none with
        pending := update w.pending client.pending
          (pending ++ [(csrf, ⟨verifier, nonce, now + pendingTtlSecs⟩)])
        issued := csrf :: w.issued }
    | _ => none
  | .callback i state code => w.enter i (w.put i (w.holder.map (.callback · state code)))
  | .redeem i now =>
    match w.calls i with
    | some (.callback client state code) =>
      match (w.pending client.pending).find? (·.1 = state) with
      | none => some (w.put i none)
      | some (_, flow) =>
        some { w.put i (if flow.expiresAt ≤ now then none else some (.exchanging client flow code))
          with
          pending := update w.pending client.pending
            ((w.pending client.pending).filter (·.1 ≠ state))
          redeemed := state :: w.redeemed }
    | _ => none
  | .exchange i result =>
    match w.calls i with
    | some (.exchanging client _ _) =>
      match result with
      | .ok claims =>
        some (w.put i (some (.verified client (claims.identity client) claims.groups)))
      | .error _ => some (w.put i none)
    | _ => none
  | .readRole i =>
    match w.calls i with
    | some (.verified client identity groups) =>
      some (w.put i (some (.minting client identity
        ((roleForGroups groups w.stored).bind parseRoleStr) w.stored.autoProvision)))
    | _ => none
  | .mint i clientIp token now persist =>
    match w.calls i with
    | some (.minting client identity derivedRole autoProvision) =>
      let result := transact persist
        (loginOrProvisionOidc identity derivedRole autoProvision clientIp token now) w.auth
      some { w.put i none with
        auth := result.2
        minted := match result.1 with
          | .ok _ => ⟨identity, client, w.stored⟩ :: w.minted
          | .error _ => w.minted }
    | _ => none

def Step (w : World) (e : Event) (w' : World) : Prop := w.exec e = some w'

/-! ## Agreement -/

open World

/-- A change of these parts replaces the provider. -/
def OidcSettings.key (settings : OidcSettings) : Bool × Option String × Option String :=
  (settings.enabled, settings.issuerUrl, settings.clientId)

def OidcClient.Of (client : OidcClient) (settings : OidcSettings) : Prop :=
  settings.enabled ∧ settings.issuerUrl = some client.issuer ∧
    settings.clientId = some client.clientId

theorem OidcClient.Of.congr {client : OidcClient} {settings other : OidcSettings}
    (h : client.Of settings) (hkey : other.key = settings.key) : client.Of other := by
  simp only [OidcSettings.key, Prod.mk.injEq] at hkey
  obtain ⟨henabled, hissuer, hclient⟩ := hkey
  rwa [OidcClient.Of, henabled, hissuer, hclient]

/-- The client that is installed is one of the stored settings. -/
def World.Current (w : World) : Prop := ∀ client, w.holder = some client → client.Of w.stored

def Call.updating : Call → Bool
  | .saved | .rebuilding _ | .disabling | .built _ => true
  | _ => false

/-- The call goes on with settings or with a client that it has read. -/
def Call.holds : Call → Bool
  | .saved | .disabling | .authorizing _ => false
  | _ => true

def Call.Fits (stored : OidcSettings) : Call → Prop
  | .rebuilding settings => settings.key = stored.key ∧ settings.enabled
  | .built client | .callback client .. | .exchanging client .. => client.Of stored
  | .verified client identity _ | .minting client identity .. =>
    client.Of stored ∧ identity.issuer = client.issuer
  | .saved | .disabling | .authorizing _ => True

theorem Call.Fits.congr {c : Call} {stored other : OidcSettings} (h : c.Fits stored)
    (hother : other.key = stored.key ∨ c.holds = false) : c.Fits other := by
  rcases hother with hkey | hholds
  · cases c with
    | rebuilding => exact ⟨h.1.trans hkey.symm, h.2⟩
    | built | callback | exchanging => exact OidcClient.Of.congr h hkey
    | verified | minting => exact ⟨OidcClient.Of.congr h.1 hkey, h.2⟩
    | _ => trivial
  · cases c with
    | saved | disabling | authorizing => trivial
    | _ => cases hholds

structure Agreed (w : World) : Prop where
  holder : (∀ i, (w.calls i).any Call.updating = false) → w.Current
  fits : ∀ i c, w.calls i = some c → c.Fits w.stored
  minted : ∀ m ∈ w.minted, m.client.Of m.stored ∧ m.identity.issuer = m.client.issuer

/-- Steps that keep settings and client together. An update that replaces the provider is saved, and
finds no call that holds what it read before; a client that cannot be built, and a callback that
starts while an update is underway, find the client of the stored settings installed. -/
def Careful (w : World) : Event → Prop
  | .updateConfig _ incoming encrypt ok =>
    (setOidc encrypt w.stored incoming).key = w.stored.key ∨
      ok = true ∧ ∀ j, (w.calls j).any Call.holds = false
  | .build i provider => ∀ settings, w.calls i = some (.rebuilding settings) →
      (OidcClient.fromSettings provider settings w.nextPending).isOk ∨ w.Current
  | .callback .. => (∀ j, (w.calls j).any Call.updating = false) ∨ w.Current
  | _ => True

def CarefulStep (w : World) (e : Event) (w' : World) : Prop := Careful w e ∧ Step w e w'

theorem required_eq_ok {value : Option String} {field text : String}
    (h : required value field = .ok text) : value = some text := by
  unfold required at h
  split at h
  · next heq =>
    cases h
    exact (Option.filter_eq_some_iff.1 heq).1
  · cases h

theorem OidcClient.of_fromSettings {provider : Provider} {settings : OidcSettings} {pending : ℕ}
    {client : OidcClient} (h : fromSettings provider settings pending = .ok client)
    (henabled : settings.enabled) : client.Of settings := by
  obtain ⟨issuer, hissuer, h⟩ := Except.bind_eq_ok.1 h
  obtain ⟨clientId, hclientId, h⟩ := Except.bind_eq_ok.1 h
  obtain ⟨redirectUrl, -, h⟩ := Except.bind_eq_ok.1 h
  obtain ⟨⟨⟩, h⟩ := Except.rest_ok h
  cases h
  exact ⟨henabled, required_eq_ok hissuer, required_eq_ok hclientId⟩

section Agreed

variable {w w' : World} {i : ℕ} {c : Option Call}

theorem Agreed.put (h : Agreed w) (hcalls : w'.calls = update w.calls i c)
    (hstored : w'.stored = w.stored) (hholder : w'.holder = w.holder)
    (hminted : ∀ m ∈ w'.minted, m.client.Of m.stored ∧ m.identity.issuer = m.client.issuer)
    (hfits : ∀ d, c = some d → d.Fits w.stored)
    (hupdating : (w.calls i).any Call.updating → c.any Call.updating ∨ w.Current) : Agreed w' := by
  refine ⟨fun hnone => ?_, fun j d hd => ?_, hminted⟩
  · have hcurrent : w.Current := by
      by_cases hi : (w.calls i).any Call.updating
      · refine (hupdating hi).resolve_left fun hc => ?_
        have hnone := hnone i
        rw [hcalls, update_self, hc] at hnone
        cases hnone
      refine h.holder fun j => ?_
      by_cases hj : j = i
      · rw [hj]
        exact eq_false_of_ne_true hi
      · have hnone := hnone j
        rwa [hcalls, update_of_ne hj] at hnone
    rwa [World.Current, hstored, hholder]
  · rw [hstored]
    exact forall_update_some hfits h.fits j d (hcalls ▸ hd)

theorem enter_eq_some {w'' : World} (h : w.enter i w'' = some w') :
    w.calls i = none ∧ w'' = w' := by
  unfold enter at h
  split_ifs at h with hi
  exact ⟨Option.isNone_iff_eq_none.1 hi, Option.some.inj h⟩

section

variable (h : Agreed w)
include h

theorem Agreed.updateConfig {incoming : OidcSettings} {encrypt : String → Option String} {ok : Bool}
    (hcareful : Careful w (.updateConfig i incoming encrypt ok))
    (hstep : Step w (.updateConfig i incoming encrypt ok) w') : Agreed w' := by
  obtain ⟨hi, rfl⟩ := enter_eq_some hstep
  refine ⟨fun hnone => ?_, forall_update_some (fun d hd => ?_) fun j d hd => ?_, h.minted⟩
  · rcases hcareful with hkey | ⟨rfl, -⟩
    · have hcurrent := h.holder fun j => ?_
      · exact fun client hclient => (hcurrent client hclient).congr hkey
      by_cases hj : j = i
      · rw [hj, hi]
        rfl
      · have hnone := hnone j
        change (update w.calls i _ j).any _ = false at hnone
        rwa [update_of_ne hj] at hnone
    · have hnone := hnone i
      change (update w.calls i _ i).any _ = false at hnone
      rw [update_self] at hnone
      cases hnone
  · split_ifs at hd
    cases hd
    trivial
  · refine (h.fits j d hd).congr (hcareful.imp_right fun hquiet => ?_)
    have hj := hquiet.2 j
    rwa [hd] at hj

theorem Agreed.readSettings (hstep : Step w (.readSettings i) w') : Agreed w' := by
  simp only [Step, exec] at hstep
  split at hstep
  · cases hstep
    refine h.put rfl rfl rfl h.minted (fun d hd => ?_) fun _ => .inl ?_
    · cases hd
      split_ifs with henabled
      · exact ⟨rfl, henabled⟩
      · trivial
    · split_ifs <;> rfl
  · cases hstep

theorem Agreed.build {provider : Provider} (hcareful : Careful w (.build i provider))
    (hstep : Step w (.build i provider) w') : Agreed w' := by
  simp only [Step, exec] at hstep
  split at hstep
  · next settings hi =>
    split at hstep
    · next client hclient =>
      cases hstep
      refine h.put rfl rfl rfl h.minted (fun d hd => ?_) fun _ => .inl rfl
      cases hd
      obtain ⟨hkey, henabled⟩ := h.fits i _ hi
      exact (OidcClient.of_fromSettings hclient henabled).congr hkey.symm
    · next e he =>
      cases hstep
      refine h.put rfl rfl rfl h.minted (fun _ hd => by cases hd) fun _ => .inr ?_
      refine (hcareful _ hi).resolve_left fun hok => ?_
      rw [he] at hok
      cases hok
  · cases hstep

theorem Agreed.install (hstep : Step w (.install i) w') : Agreed w' := by
  have hend : ∀ holder : Option OidcClient,
      (∀ client, holder = some client → client.Of w.stored) →
        Agreed { w.put i none with holder := holder } := fun holder hholder =>
    ⟨fun _ => hholder, forall_update_some (fun _ hd => by cases hd) h.fits, h.minted⟩
  simp only [Step, exec] at hstep
  split at hstep
  · cases hstep
    exact hend none fun _ hn => by cases hn
  · next client hi =>
    cases hstep
    refine hend (some client) fun _ hc => ?_
    cases hc
    exact h.fits i _ hi
  · cases hstep

theorem Agreed.authorize (hstep : Step w (.authorize i) w') : Agreed w' := by
  obtain ⟨hi, rfl⟩ := enter_eq_some hstep
  refine h.put rfl rfl rfl h.minted (fun d hd => ?_) (by simp [hi])
  obtain ⟨client, -, rfl⟩ := Option.map_eq_some_iff.1 hd
  trivial

variable {now : UInt64}

theorem Agreed.authorizeUrl {csrf verifier nonce : String}
    (hstep : Step w (.authorizeUrl i csrf verifier nonce now) w') : Agreed w' := by
  simp only [Step, exec] at hstep
  split at hstep
  · next client hi =>
    split_ifs at hstep <;> cases hstep <;>
      exact h.put rfl rfl rfl h.minted (fun _ hd => by cases hd) (by simp [hi, Call.updating])
  · cases hstep

theorem Agreed.callback {state code : String} (hcareful : Careful w (.callback i state code))
    (hstep : Step w (.callback i state code) w') : Agreed w' := by
  obtain ⟨hi, rfl⟩ := enter_eq_some hstep
  refine h.put rfl rfl rfl h.minted (fun d hd => ?_) (by simp [hi])
  obtain ⟨client, hclient, rfl⟩ := Option.map_eq_some_iff.1 hd
  exact hcareful.elim h.holder id client hclient

theorem Agreed.redeem (hstep : Step w (.redeem i now) w') : Agreed w' := by
  simp only [Step, exec] at hstep
  split at hstep
  · next client state code hi =>
    split at hstep <;> cases hstep
    · exact h.put rfl rfl rfl h.minted (fun _ hd => by cases hd) (by simp [hi, Call.updating])
    refine h.put rfl rfl rfl h.minted (fun d hd => ?_) (by simp [hi, Call.updating])
    have hfits := h.fits i _ hi
    split_ifs at hd
    cases hd
    exact hfits
  · cases hstep

theorem Agreed.exchange {result : Except OidcError Claims}
    (hstep : Step w (.exchange i result) w') : Agreed w' := by
  simp only [Step, exec] at hstep
  split at hstep
  · next client _ _ hi =>
    split at hstep <;> cases hstep
    · refine h.put rfl rfl rfl h.minted (fun d hd => ?_) (by simp [hi, Call.updating])
      cases hd
      exact ⟨h.fits i _ hi, rfl⟩
    · exact h.put rfl rfl rfl h.minted (fun _ hd => by cases hd) (by simp [hi, Call.updating])
  · cases hstep

theorem Agreed.readRole (hstep : Step w (.readRole i) w') : Agreed w' := by
  simp only [Step, exec] at hstep
  split at hstep
  · next client identity groups hi =>
    cases hstep
    have hfits := h.fits i _ hi
    refine h.put rfl rfl rfl h.minted (fun d hd => ?_) (by simp [hi, Call.updating])
    cases hd
    exact hfits
  · cases hstep

theorem Agreed.mint {clientIp token : String} {persist : Persist}
    (hstep : Step w (.mint i clientIp token now persist) w') : Agreed w' := by
  simp only [Step, exec] at hstep
  split at hstep
  · next client identity derivedRole autoProvision hi =>
    cases hstep
    refine h.put rfl rfl rfl (fun m hm => ?_) (fun _ hd => by cases hd)
      (by simp [hi, Call.updating])
    split at hm
    · rcases mem_cons.1 hm with rfl | hm
      · exact h.fits i _ hi
      · exact h.minted m hm
    · exact h.minted m hm
  · cases hstep

/-- **Every careful step keeps settings and client together.** -/
theorem Agreed.step {e : Event} (hcareful : Careful w e) (hstep : Step w e w') : Agreed w' := by
  cases e with
  | updateConfig => exact h.updateConfig hcareful hstep
  | readSettings => exact h.readSettings hstep
  | build => exact h.build hcareful hstep
  | install => exact h.install hstep
  | authorize => exact h.authorize hstep
  | authorizeUrl => exact h.authorizeUrl hstep
  | callback => exact h.callback hcareful hstep
  | redeem => exact h.redeem hstep
  | exchange => exact h.exchange hstep
  | readRole => exact h.readRole hstep
  | mint => exact h.mint hstep

end

end Agreed

/-! ## State values -/

def flowStates (pending : ℕ → List (String × Pending)) (k : ℕ) : List String :=
  (pending k).map (·.1)

/-- A state value waits in one place, and not after it is redeemed. -/
structure Spent (pending : ℕ → List (String × Pending)) (issued redeemed : List String) : Prop where
  nodup : redeemed.Nodup
  known : ∀ state ∈ redeemed, state ∈ issued
  started : ∀ k, ∀ state ∈ flowStates pending k, state ∈ issued
  apart : ∀ k, ∀ state ∈ flowStates pending k, state ∉ redeemed
  unique : ∀ k l, ∀ state ∈ flowStates pending k, state ∈ flowStates pending l → k = l

namespace Spent

variable {pending : ℕ → List (String × Pending)} {issued redeemed : List String} {k : ℕ}
  {flows : List (String × Pending)} {state : String}

theorem mem_flowStates_update {j : ℕ} (h : state ∈ flowStates (update pending k flows) j) :
    j = k ∧ state ∈ flows.map (·.1) ∨ state ∈ flowStates pending j := by
  rw [flowStates, update_apply] at h
  split_ifs at h with hj
  · exact .inl ⟨hj, h⟩
  · exact .inr h

section

variable (h : Spent pending issued redeemed)
include h

theorem retain (hflows : ∀ state ∈ flows.map (·.1), state ∈ flowStates pending k) :
    Spent (update pending k flows) issued redeemed := by
  have hsub : ∀ j, ∀ state ∈ flowStates (update pending k flows) j,
      state ∈ flowStates pending j := by
    intro j state hmem
    rcases mem_flowStates_update hmem with ⟨rfl, hin⟩ | hin
    · exact hflows state hin
    · exact hin
  exact ⟨h.nodup, h.known, fun j state hmem => h.started j state (hsub j state hmem),
    fun j state hmem => h.apart j state (hsub j state hmem),
    fun j l state hj hl => h.unique j l state (hsub j state hj) (hsub l state hl)⟩

theorem add (hnew : state ∉ issued)
    (hflows : ∀ state ∈ flows.map (·.1), state ∈ flowStates pending k) (flow : Pending) :
    Spent (update pending k (flows ++ [(state, flow)])) (state :: issued) redeemed := by
  have hsub : ∀ j, ∀ st ∈ flowStates (update pending k (flows ++ [(state, flow)])) j,
      st = state ∧ j = k ∨ st ∈ flowStates pending j := by
    intro j st hmem
    rcases mem_flowStates_update hmem with ⟨rfl, hin⟩ | hin
    · rw [map_append, mem_append] at hin
      rcases hin with hin | hin
      · exact .inr (hflows st hin)
      · exact .inl ⟨mem_singleton.1 hin, rfl⟩
    · exact .inr hin
  refine ⟨h.nodup, fun st hst => mem_cons_of_mem _ (h.known st hst), fun j st hst => ?_,
    fun j st hst => ?_, fun j l st hj hl => ?_⟩
  · rcases hsub j st hst with ⟨rfl, -⟩ | hst
    · exact mem_cons_self
    · exact mem_cons_of_mem _ (h.started j st hst)
  · rcases hsub j st hst with ⟨rfl, -⟩ | hst
    · exact fun hmem => hnew (h.known st hmem)
    · exact h.apart j st hst
  rcases hsub j st hj with ⟨rfl, rfl⟩ | hj'
  · rcases hsub l st hl with ⟨-, rfl⟩ | hl'
    · rfl
    · exact absurd (h.started l st hl') hnew
  · rcases hsub l st hl with ⟨rfl, -⟩ | hl'
    · exact absurd (h.started j st hj') hnew
    · exact h.unique j l st hj' hl'

theorem redeem (hmem : state ∈ flowStates pending k) :
    Spent (update pending k ((pending k).filter (·.1 ≠ state))) issued (state :: redeemed) := by
  have hflows : ∀ st ∈ ((pending k).filter (·.1 ≠ state)).map (·.1),
      st ≠ state ∧ st ∈ flowStates pending k := by
    intro st hst
    obtain ⟨flow, hflow, rfl⟩ := mem_map.1 hst
    obtain ⟨hflow, hne⟩ := mem_filter.1 hflow
    exact ⟨of_decide_eq_true hne, mem_map_of_mem hflow⟩
  have hrest := h.retain fun st hst => (hflows st hst).2
  refine ⟨nodup_cons.2 ⟨h.apart k state hmem, h.nodup⟩, ?_, hrest.started, ?_, hrest.unique⟩
  · intro st hst
    rcases mem_cons.1 hst with rfl | hst
    · exact h.started k st hmem
    · exact h.known st hst
  intro j st hst hredeemed
  rcases mem_cons.1 hredeemed with rfl | hredeemed
  · rcases mem_flowStates_update hst with ⟨rfl, hst⟩ | hst'
    · exact (hflows st hst).1 rfl
    · obtain rfl := h.unique j k st hst' hmem
      rw [flowStates, update_self] at hst
      exact (hflows st hst).1 rfl
  · exact hrest.apart j st hst hredeemed

end

end Spent

/-- **Every step keeps redeemed values redeemed.** -/
theorem Spent.step {w w' : World} {e : Event} (h : Spent w.pending w.issued w.redeemed)
    (hstep : Step w e w') : Spent w'.pending w'.issued w'.redeemed := by
  unfold Step at hstep
  cases e with
  | updateConfig | authorize | callback =>
    obtain ⟨-, rfl⟩ := enter_eq_some hstep
    exact h
  | build | exchange =>
    simp only [exec] at hstep
    split at hstep
    · split at hstep <;> cases hstep <;> exact h
    · cases hstep
  | readSettings | install | readRole | mint =>
    simp only [exec] at hstep
    split at hstep <;> cases hstep <;> exact h
  | authorizeUrl i csrf verifier nonce now =>
    simp only [exec] at hstep
    split at hstep
    · next client hi =>
      have hflows : ∀ state ∈ ((w.pending client.pending).filter (now < ·.2.expiresAt)).map (·.1),
          state ∈ flowStates w.pending client.pending :=
        fun state hmem => (filter_sublist.map _).subset hmem
      split_ifs at hstep with hfull hnew <;> cases hstep
      · exact h.retain hflows
      · exact h.add hnew hflows _
    · cases hstep
  | redeem i now =>
    simp only [exec] at hstep
    split at hstep
    · next client state code hi =>
      split at hstep
      · cases hstep
        exact h
      next key flow hflow =>
      cases hstep
      refine h.redeem (mem_map.2 ⟨_, mem_of_find?_eq_some hflow, ?_⟩)
      have hkey := find?_some hflow
      exact of_decide_eq_true hkey
    · cases hstep

/-! ## Runs -/

structure Initial (w : World) : Prop where
  holder : w.Current
  calls : ∀ i, w.calls i = none
  pending : ∀ k, w.pending k = []
  redeemed : w.redeemed = []
  minted : w.minted = []

theorem Initial.agreed {w : World} (h : Initial w) : Agreed w := by
  refine ⟨fun _ => h.holder, fun i c hi => ?_, fun m hm => ?_⟩
  · rw [h.calls i] at hi
    cases hi
  · rw [h.minted] at hm
    cases hm

theorem Initial.spent {w : World} (h : Initial w) : Spent w.pending w.issued w.redeemed := by
  have hopened : ∀ k state, state ∉ flowStates w.pending k := by
    intro k state hmem
    rw [flowStates, h.pending k] at hmem
    cases hmem
  refine ⟨?_, ?_, fun k state hmem => absurd hmem (hopened k state),
    fun k state hmem => absurd hmem (hopened k state),
    fun k _ state hmem => absurd hmem (hopened k state)⟩
  · rw [h.redeemed]
    exact nodup_nil
  · rw [h.redeemed]
    intro state hmem
    cases hmem

/-- **The current provider.** In careful runs a session is minted only for the stored settings; no run
redeems a state value twice. -/
theorem mint_current {w₀ : World} (h₀ : Initial w₀) :
    (∀ es w, Run CarefulStep w₀ es w → ∀ m ∈ w.minted, m.stored.enabled ∧
      m.stored.issuerUrl = some m.identity.issuer ∧ m.stored.clientId = some m.client.clientId) ∧
    ∀ es w, Run Step w₀ es w → w.redeemed.Nodup := by
  refine ⟨fun es w h m hm => ?_, fun es w h => ?_⟩
  · have hagreed : Agreed w := h.inv h₀.agreed fun _ _ _ hw hstep => hw.step hstep.1 hstep.2
    obtain ⟨⟨henabled, hissuer, hclient⟩, hidentity⟩ := hagreed.minted m hm
    rw [hidentity]
    exact ⟨henabled, hissuer, hclient⟩
  · have hspent : Spent w.pending w.issued w.redeemed :=
      h.inv (I := fun w => Spent w.pending w.issued w.redeemed) h₀.spent
        fun _ _ _ hw hstep => hw.step hstep
    exact hspent.nodup

def settingsOf (issuer : String) : OidcSettings where
  enabled := true
  issuerUrl := some issuer
  clientId := some "nasty"
  clientSecret := none
  clientSecretEncrypted := none
  redirectUri := some "https://nasty/api/auth/oidc/callback"
  scopes := defaultOidcScopes
  groupsClaim := "groups"
  roleMappings := []
  defaultRole := some "readonly"
  autoProvision := true

def clientOf (issuer : String) : OidcClient where
  issuer := issuer
  clientId := "nasty"
  clientSecret := none
  redirectUrl := "https://nasty/api/auth/oidc/callback"
  settings := settingsOf issuer
  pending := 0

def World.started (issuer : String) : World where
  stored := settingsOf issuer
  holder := some (clientOf issuer)
  pending _ := []
  nextPending := 1
  auth := bootstrapped "argon2:admin"
  calls _ := none
  issued := []
  redeemed := []
  minted := []

theorem started_initial (issuer : String) : Initial (started issuer) where
  holder _ h := by
    cases h
    exact ⟨rfl, rfl, rfl⟩
  calls _ := rfl
  pending _ := rfl
  redeemed := rfl
  minted := rfl

def signIn : List Event :=
  [.authorize 1, .authorizeUrl 1 "state" "verifier" "nonce" 0, .callback 2 "state" "code",
    .redeem 2 0, .exchange 2 (.ok ⟨"42", none, some "eve", []⟩), .readRole 2,
    .mint 2 "10.0.0.1" "token" 0 .saved]

def reachable : Provider := ⟨fun _ => .ok (), fun _ => none⟩

/-- The provider is replaced; while the settings are stored once more, a user of it signs in. -/
def moved : List Event :=
  [.updateConfig 0 (settingsOf "https://b") (fun _ => none) true, .readSettings 0,
    .build 0 reachable, .install 0,
    .updateConfig 3 (settingsOf "https://b") (fun _ => none) true] ++ signIn

theorem run_moved : ∃ w, Run CarefulStep (.started "https://a") moved w ∧
    w.minted.map (·.identity.issuer) = ["https://b"] ∧ w.redeemed = ["state"] := by
  have h0 : Run CarefulStep (.started "https://a") [] (.started "https://a") := .nil
  have h1 := h0.next (.updateConfig 0 (settingsOf "https://b") (fun _ => none) true)
    (.inr ⟨rfl, fun _ => rfl⟩) rfl
  have h2 := h1.next (.readSettings 0) trivial rfl
  have h3 := h2.next (.build 0 reachable) (fun _ h => by cases h; exact .inl rfl) rfl
  have h4 := h3.next (.install 0) trivial rfl
  have h5 := h4.next (.updateConfig 3 (settingsOf "https://b") (fun _ => none) true) (.inl rfl) rfl
  have h6 := h5.next (.authorize 1) trivial rfl
  have h7 := h6.next (.authorizeUrl 1 "state" "verifier" "nonce" 0) trivial rfl
  have h8 := h7.next (.callback 2 "state" "code")
    (.inr fun _ h => by cases h; exact ⟨rfl, rfl, rfl⟩) rfl
  have h9 := h8.next (.redeem 2 0) trivial rfl
  have h10 := h9.next (.exchange 2 (.ok ⟨"42", none, some "eve", []⟩)) trivial rfl
  have h11 := h10.next (.readRole 2) trivial rfl
  have h12 := h11.next (.mint 2 "10.0.0.1" "token" 0 .saved) trivial rfl
  exact ⟨_, h12, rfl, rfl⟩

theorem mint_current_moved : ∃ w, Run CarefulStep (.started "https://a") moved w ∧
    (∃ m ∈ w.minted, m.identity.issuer = "https://b" ∧ m.stored.enabled ∧
      m.stored.issuerUrl = some "https://b") ∧ w.redeemed = ["state"] ∧ w.redeemed.Nodup := by
  obtain ⟨w, hrun, hminted, hredeemed⟩ := run_moved
  obtain ⟨hcurrent, hnodup⟩ := mint_current (started_initial "https://a")
  obtain ⟨m, hm, hissuer⟩ := mem_map.1 (hminted ▸ mem_singleton_self "https://b")
  obtain ⟨henabled, hurl, -⟩ := hcurrent _ w hrun m hm
  exact ⟨w, hrun, ⟨m, hm, hissuer, henabled, hissuer ▸ hurl⟩, hredeemed,
    hnodup _ w (hrun.history_inv (I := Run Step _) .nil fun _ _ _ _ h hstep => .snoc h hstep.2)⟩

def unreachable : Provider := ⟨fun _ => .error (.discovery "connection refused"), fun _ => none⟩

def replaced : List Event :=
  [.updateConfig 0 (settingsOf "https://b") (fun _ => none) true, .readSettings 0,
    .build 0 unreachable] ++ signIn

/-- A session is minted for an identity of the provider that was replaced. -/
theorem replaced_provider_mints : ∃ w, Run Step (.started "https://a") replaced w ∧
    ∃ m ∈ w.minted, m.identity.issuer = "https://a" ∧ m.stored.issuerUrl = some "https://b" := by
  have hrun : (replaced.foldlM exec (started "https://a")).any fun w =>
      w.minted.any fun m =>
        decide (m.identity.issuer = "https://a" ∧ m.stored.issuerUrl = some "https://b") := by
    decide +kernel
  obtain ⟨w, hw, hminted⟩ := (Option.any_eq_true _ _).1 hrun
  obtain ⟨m, hm, hissuer⟩ := any_eq_true.1 hminted
  exact ⟨w, Run.of_foldlM hw, m, hm, of_decide_eq_true hissuer⟩

end Nasty.Auth.Oidc
