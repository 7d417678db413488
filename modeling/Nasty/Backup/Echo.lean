import Nasty.Backup.Service

/-!
# Reading a profile and submitting it unchanged

A response shows a stored plaintext as `***` and leaves blobs out. Submitted again, an absent
secret is kept (`carrySecret`), but the marker is a new secret like any other: it is sealed, or
stored as plaintext when sealing fails, and resolves to `***` from then on. So the echo of a
profile keeps exactly the secrets that are not stored as plaintext.

A REST URL that does not parse is redacted as text. When the redacted text does parse, its marker
is taken for a user name; `Clean` excludes this.
-/

namespace Nasty.Backup.Service

open Cron

variable {τ : Type} [LinearOrder τ]

def echo (env : Env τ) (json : Json) (call : Call τ) (id : String) (w : World) :
    Except BackupError BackupProfile × World :=
  match w.getProfile env id with
  | .error error => (.error error, w)
  | .ok p => updateProfile env json call id p w

/-- The redaction of a URL that does not parse shows no user name and no password. -/
def BackupTarget.Clean (crate : UrlCrate) : BackupTarget → Prop
  | rest url .. => crate.parse url = none →
      ∀ parsed, crate.parse (redactUrlCredentials url) = some parsed → ¬ hasUserinfo crate parsed
  | _ => True

def BackupTarget.plainSecret : BackupTarget → Option String
  | s3 _ _ _ secretKey _ _ => secretKey
  | b2 _ _ _ accountKey _ => accountKey
  | rest _ _ password _ => password
  | _ => none

def BackupTarget.marked : BackupTarget → ResolvedTargetSecrets
  | s3 .. => ⟨some "***", none, none⟩
  | b2 .. => ⟨none, some "***", none⟩
  | rest _ username .. => ⟨none, none, username.map fun _ => "***"⟩
  | _ => ⟨none, none, none⟩

/-! ## One secret -/

section

variable {secrets : Secrets}

def echoSecret (secrets : Secrets) (name : String) (plain : Option String)
    (blob : Option EncryptedBlob) : Option String × Option EncryptedBlob :=
  let carried := carrySecret (redactedSecret plain) none plain blob
  sealSecret secrets name carried.1 carried.2

theorem resolve_seal (hopens : secrets.Opens) (name plain : String) :
    resolveSecret secrets name (sealSecret secrets name (some plain) none).1
      (sealSecret secrets name (some plain) none).2 = .ok plain := by
  rcases hseal : secrets.encrypt name plain with error | blob
  · have hkept : sealSecret secrets name (some plain) none = (some plain, none) := by
      simp only [sealSecret, hseal]
    rw [hkept]
    rfl
  have hsealed : sealSecret secrets name (some plain) none = (none, some blob) := by
    simp only [sealSecret, hseal]
  rw [hsealed]
  simp only [resolveSecret, hopens name plain blob hseal]
  rfl

theorem resolve_echo (hopens : secrets.Opens) (name : String) (plain : Option String)
    (blob : Option EncryptedBlob) :
    resolveSecret secrets name (echoSecret secrets name plain blob).1
        (echoSecret secrets name plain blob).2 =
      if plain.isSome then .ok "***" else resolveSecret secrets name plain blob := by
  cases plain with
  | some plain => exact resolve_seal hopens name "***"
  | none => cases blob <;> rfl

end

/-! ## The stored profile -/

section

variable {crate : UrlCrate}

theorem strip_shows_none {url : String} {username password : Option String}
    {blob : Option EncryptedBlob}
    (hclean : (BackupTarget.rest url username password blob).Clean crate) {parsed : crate.Url}
    (h : crate.parse (stripUrlUserinfo crate url) = some parsed) : ¬ hasUserinfo crate parsed := by
  unfold stripUrlUserinfo at h
  rcases hparse : crate.parse url with _ | original <;> simp only [hparse] at h
  · exact hclean hparse parsed h
  by_cases hinfo : hasUserinfo crate original
  · rw [if_pos hinfo] at h
    obtain ⟨husername, hpassword⟩ := crate.parse_cleared hparse h
    simp [hasUserinfo, husername, hpassword]
  · rw [if_neg hinfo, hparse] at h
    cases h
    exact hinfo

theorem normalize_redacted {target : BackupTarget} (hclean : target.Clean crate) :
    (normalizeRestUrlUserinfo crate (target.redacted crate)).2 = target.redacted crate := by
  cases target with
  | rest url username password blob =>
    simp only [BackupTarget.redacted, normalizeRestUrlUserinfo]
    rcases hparse : crate.parse (stripUrlUserinfo crate url) with _ | parsed
    · rfl
    · simp only [strip_shows_none hclean hparse]
      rfl
  | _ => rfl

theorem resolveSecrets_echo {secrets : Secrets} (hopens : secrets.Opens) (id : String)
    (target : BackupTarget) :
    resolveSecrets secrets id (encryptTargetSecretsInPlace secrets id
        (carryForwardTarget (target.redacted crate) target)) =
      if target.plainSecret.isSome then .ok target.marked
      else resolveSecrets secrets id target := by
  cases target with
  | s3 _ _ _ plain blob _ =>
    show Except.map _ (resolveSecret secrets _ (echoSecret secrets (s3SecretName id) plain blob).1
      (echoSecret secrets (s3SecretName id) plain blob).2) = _
    rw [resolve_echo hopens]
    cases plain <;> rfl
  | b2 _ _ _ plain blob =>
    show Except.map _ (resolveSecret secrets _ (echoSecret secrets (b2SecretName id) plain blob).1
      (echoSecret secrets (b2SecretName id) plain blob).2) = _
    rw [resolve_echo hopens]
    cases plain <;> rfl
  | rest _ username plain blob =>
    cases username with
    | none => cases plain <;> rfl
    | some username =>
    show Except.map _ (resolveSecret secrets _
      (echoSecret secrets (restSecretName id) plain blob).1
      (echoSecret secrets (restSecretName id) plain blob).2) = _
    rw [resolve_echo hopens]
    cases plain <;> rfl
  | _ => rfl

end

variable {env : Env τ} {json : Json} {call : Call τ} {w : World} {id : String}
  {p p' checked : BackupProfile}

theorem prepareUpdate_redacted (hclean : p.target.Clean env.url)
    (hcheck : checkSubmitted env call (p.redacted env.url) = .ok checked)
    (h : prepareUpdate env call checked p = .ok p') :
    p'.id = p.id ∧
      (p'.password, p'.passwordEncrypted) = echoSecret call.secrets (profilePasswordName p.id)
        p.password p.passwordEncrypted ∧
      p'.target = encryptTargetSecretsInPlace call.secrets p.id
        (carryForwardTarget (p.target.redacted env.url) p.target) := by
  obtain ⟨schedule, rfl⟩ := checkSubmitted_spec hcheck
  obtain ⟨lastRun, rfl⟩ := prepareUpdate_spec h
  refine ⟨rfl, rfl, ?_⟩
  show encryptTargetSecretsInPlace call.secrets p.id (carryForwardTarget
    (normalizeRestUrlUserinfo env.url (p.target.redacted env.url)).2 p.target) = _
  rw [normalize_redacted hclean]

/-- **Echoed secrets.** A profile that is read and submitted again keeps its secrets, but those
stored as plaintext become the marker. -/
theorem echo_secrets (env : Env τ) (json : Json) (call : Call τ) (w : World) (p : BackupProfile)
    (hopens : call.secrets.Opens) (hp : w.getProfileInternal p.id = .ok p)
    (hclean : p.target.Clean env.url) :
    ((echo env json call p.id w).2.profiles = w.profiles ∧
        (echo env json call p.id w).1.isOk = false) ∨
    ∃ p', (echo env json call p.id w).2.getProfileInternal p.id = .ok p' ∧
      resolveProfilePassword call.secrets p' =
        (if p.password.isSome then .ok "***" else resolveProfilePassword call.secrets p) ∧
      resolveSecrets call.secrets p.id p'.target =
        (if p.target.plainSecret.isSome then .ok p.target.marked
          else resolveSecrets call.secrets p.id p.target) := by
  have hecho : echo env json call p.id w =
      updateProfile env json call p.id (p.redacted env.url) w := by
    unfold echo World.getProfile
    rw [hp]
    rfl
  rcases hresult : updateProfile env json call p.id (p.redacted env.url) w with ⟨answer, w'⟩
  rw [hecho, hresult]
  by_cases hstored : answer.isOk ∨ w'.profiles ≠ w.profiles
  · right
    obtain ⟨error, hrefused⟩ | ⟨checked, existing, p', hcheck, hfind, hprepare, hstore⟩ :=
      updateProfile_cases env json call p.id (p.redacted env.url) w
    · obtain ⟨rfl, rfl⟩ := Prod.mk.inj (hresult.symm.trans hrefused)
      exact absurd rfl (hstored.resolve_left nofun)
    obtain rfl : existing = p :=
      Option.some.inj (hfind.symm.trans (getProfileInternal_eq_ok.1 hp))
    obtain ⟨hid, hpassword, htarget⟩ := prepareUpdate_redacted hclean hcheck hprepare
    refine ⟨p', ?_, ?_, ?_⟩
    · rw [getProfileInternal_eq_ok, World.store_stored (hstore.symm.trans hresult) hstored]
      exact List.find?_modifyFirst hfind (decide_eq_true hid)
    · have hresolve := resolve_echo hopens (profilePasswordName existing.id) existing.password
        existing.passwordEncrypted
      rw [← hpassword] at hresolve
      unfold resolveProfilePassword
      rw [hid]
      exact hresolve
    · rw [htarget]
      exact resolveSecrets_echo hopens existing.id existing.target
  · left
    obtain ⟨hfailed, hsame⟩ := not_or.1 hstored
    exact ⟨not_not.1 hsame, Bool.eq_false_iff.2 hfailed⟩

def sealing : Call ℕ where
  secrets := ⟨fun _ plain => .ok ⟨plain⟩, fun _ blob => .ok blob.text⟩
  now := 0
  faults := {}

def sealedNightly : BackupProfile :=
  { nightly with password := none, passwordEncrypted := some ⟨"hunter2"⟩ }

def sealedJson : Json := threeLists [] [] [sealedNightly]

def sealedWorld : World := ⟨[sealedNightly], none, ⟨none, false⟩⟩

theorem echo_secrets_sealed :
    resolveProfilePassword sealing.secrets sealedNightly = .ok "hunter2" ∧
      ∃ p', (echo localEnv sealedJson sealing "1" sealedWorld).2.getProfileInternal "1" = .ok p' ∧
        resolveProfilePassword sealing.secrets p' =
          resolveProfilePassword sealing.secrets sealedNightly := by
  have hopens : sealing.secrets.Opens := fun _ _ _ h => by
    cases h
    rfl
  refine ⟨by decide, ?_⟩
  rcases echo_secrets localEnv sealedJson sealing sealedWorld sealedNightly hopens (by decide)
    trivial with ⟨-, hfailed⟩ | ⟨p', hp', hpassword, -⟩
  · exact absurd hfailed (by decide +kernel)
  · exact ⟨p', hp', hpassword⟩

/-- A crate that reads two URLs of one host, with the marker and without. -/
def oneHost : UrlCrate where
  Url := Bool
  parse s :=
    if s = "http://[redacted]@host" then some true else if s = "http://host" then some false
    else none
  username shown := if shown then "%5Bredacted%5D" else ""
  password _ := none
  setUsername _ name := name != ""
  setPassword shown _ := shown
  text shown := if shown then "http://[redacted]@host" else "http://host"
  parse_cleared _ h := by
    cases h
    exact ⟨rfl, rfl⟩

def restEnv : Env ℕ := ⟨fun _ => .error "no schedule", oneHost⟩

/-- The authority of this URL ends at the backslash, where its host is not one. -/
def restNightly : BackupProfile :=
  { nightly with target := .rest "http://a<b\\c@host" none none none }

def echoedNightly : BackupProfile :=
  { restNightly with
    password := some "***"
    target := .rest "http://host" (some "[redacted]") none none }

def restJson : Json := threeLists [restNightly] [echoedNightly] []

def restWorld : World :=
  (World.new restJson {} ⟨none, false⟩).next restEnv restJson (.create offline "" restNightly)

/-- The echo of a created profile replaces its password, stored as plaintext, by the marker, and
reads a user name out of its redacted URL. -/
theorem echo_changes_secrets :
    restWorld.getProfileInternal "1" = .ok restNightly ∧
      resolveProfilePassword offline.secrets restNightly = .ok "hunter2" ∧
      resolveSecrets offline.secrets "1" restNightly.target = .ok ⟨none, none, none⟩ ∧
      (echo restEnv restJson offline "1" restWorld).2.getProfileInternal "1" =
        .ok echoedNightly ∧
      resolveProfilePassword offline.secrets echoedNightly = .ok "***" ∧
      resolveSecrets offline.secrets "1" echoedNightly.target =
        .error (.failed ("secret 'nasty.backup.1.rest.password' is neither encrypted nor " ++
          "plaintext (profile is missing required field)")) := by
  refine ⟨by decide +kernel, by decide, by decide, by decide +kernel, by decide, by decide⟩

end Nasty.Backup.Service
