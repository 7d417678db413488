import Nasty.Backup.Echo

/-!
# Sealing what older releases stored

At its start the engine moves credentials out of the URLs of REST targets and seals the secrets that
are stored as plaintext. Whatever the backend answers, every secret still resolves to what it was,
and a pass that has been stored leaves nothing for another one.
-/

namespace Nasty.Backup.Service

variable {τ : Type} [LinearOrder τ] {secrets : Secrets} {crate : UrlCrate}

theorem sealSecret_again (secrets : Secrets) (name : String) (plain : Option String)
    (blob : Option EncryptedBlob) :
    sealSecret secrets name (sealSecret secrets name plain blob).1
      (sealSecret secrets name plain blob).2 = sealSecret secrets name plain blob := by
  fun_cases sealSecret secrets name plain blob <;> simp_all [sealSecret]

theorem resolve_sealSecret (hopens : secrets.Opens) (name : String) (plain : Option String)
    (blob : Option EncryptedBlob) :
    resolveSecret secrets name (sealSecret secrets name plain blob).1
      (sealSecret secrets name plain blob).2 = resolveSecret secrets name plain blob := by
  rcases blob with _ | blob
  · rcases plain with _ | plain
    · rfl
    · exact resolve_seal hopens name plain
  · rfl

theorem encryptTarget_again (id : String) (target : BackupTarget) :
    encryptTargetSecretsInPlace secrets id (encryptTargetSecretsInPlace secrets id target) =
      encryptTargetSecretsInPlace secrets id target := by
  cases target <;> simp [encryptTargetSecretsInPlace, sealSecret_again]

/-- A URL that was cleared is read without userinfo. -/
theorem normalize_rest (crate : UrlCrate) (url : String) (username password : Option String)
    (blob : Option EncryptedBlob) : ∃ url' username' password',
      (normalizeRestUrlUserinfo crate (.rest url username password blob)).2 =
        .rest url' username' password' blob ∧
      ∀ parsed, crate.parse url' = some parsed → hasUserinfo crate parsed = false := by
  rcases hparse : crate.parse url with _ | parsed
  · exact ⟨url, username, password, by simp [normalizeRestUrlUserinfo, hparse], by simp [hparse]⟩
  by_cases huser : hasUserinfo crate parsed
  · simp only [normalizeRestUrlUserinfo, hparse, huser, if_true]
    refine ⟨_, _, _, rfl, fun parsed' hparsed' => ?_⟩
    obtain ⟨hname, hpassword⟩ := crate.parse_cleared hparse hparsed'
    simp [hasUserinfo, hname, hpassword]
  · exact ⟨url, username, password, by simp [normalizeRestUrlUserinfo, hparse, huser],
      by simpa [hparse] using huser⟩

theorem normalize_kept {target : BackupTarget}
    (h : (normalizeRestUrlUserinfo crate target).1 = false) :
    (normalizeRestUrlUserinfo crate target).2 = target := by
  revert h
  fun_cases normalizeRestUrlUserinfo crate target <;> simp

theorem normalize_again (secrets : Secrets) (crate : UrlCrate) (id : String)
    (target : BackupTarget) :
    let sealed := encryptTargetSecretsInPlace secrets id (normalizeRestUrlUserinfo crate target).2
    normalizeRestUrlUserinfo crate sealed = (false, sealed) := by
  cases target with
  | rest url username password blob =>
    obtain ⟨url', username', password', htarget, hurl⟩ :=
      normalize_rest crate url username password blob
    rw [htarget]
    rcases hparse : crate.parse url' with _ | parsed
    · simp [encryptTargetSecretsInPlace, normalizeRestUrlUserinfo, hparse]
    · simp [encryptTargetSecretsInPlace, normalizeRestUrlUserinfo, hparse, hurl parsed hparse]
  | _ => rfl

theorem migrateProfile_again (env : Env τ) (call : Call τ) (p : BackupProfile) :
    (migrateProfile env call (migrateProfile env call p).2).1 = false := by
  have hnormal := normalize_again call.secrets env.url p.id p.target
  simp [migrateProfile, withNormalizedTarget, encryptProfileSecretsInPlace, hnormal, secretsSet,
    sealSecret_again, encryptTarget_again]

theorem resolve_encryptTarget (hopens : secrets.Opens) (id : String) (target : BackupTarget) :
    resolveSecrets secrets id (encryptTargetSecretsInPlace secrets id target) =
      resolveSecrets secrets id target := by
  cases target <;> simp [encryptTargetSecretsInPlace, resolveSecrets, resolve_sealSecret hopens]

/-- **A migration changes no secret.** Every profile is still there and its secrets resolve to what
they were; a second one does nothing. -/
theorem migrate_keeps_secrets (env : Env τ) (json : Json) (call : Call τ) (w : World)
    (hopens : call.secrets.Opens) :
    let r := migrateSecrets env json call w
    List.Forall₂ (fun p p' => p'.id = p.id ∧
        resolveProfilePassword call.secrets p' = resolveProfilePassword call.secrets p ∧
        ((normalizeRestUrlUserinfo env.url p.target).1 = false →
          resolveSecrets call.secrets p.id p'.target = resolveSecrets call.secrets p.id p.target))
      w.profiles r.2.profiles ∧
    (r.1.isOk → migrateSecrets env json call r.2 = (.ok (), r.2)) := by
  intro r
  by_cases hany : w.profiles.any fun p => (migrateProfile env call p).1
  swap
  · have hr : r = (.ok (), w) := by simp [r, migrateSecrets, hany]
    rw [hr]
    exact ⟨List.forall₂_same.2 fun p _ => ⟨rfl, rfl, fun _ => rfl⟩, fun _ => hr⟩
  have hr : w.store json call.faults (w.profiles.map fun p => (migrateProfile env call p).2) () =
      (r.1, r.2) := by simp [r, migrateSecrets, hany]
  constructor
  · by_cases hsame : r.2.profiles = w.profiles
    · rw [hsame]
      exact List.forall₂_same.2 fun p _ => ⟨rfl, rfl, fun _ => rfl⟩
    rw [World.store_stored hr (.inr hsame), List.forall₂_map_right_iff]
    refine List.forall₂_same.2 fun p _ => ⟨rfl, resolve_sealSecret hopens _ _ _, fun htarget => ?_⟩
    exact (resolve_encryptTarget hopens p.id _).trans
      (by rw [withNormalizedTarget, normalize_kept htarget])
  · intro hok
    have hnone : r.2.profiles.any (fun p => (migrateProfile env call p).1) = false := by
      rw [World.store_stored hr (.inl hok)]
      simp [migrateProfile_again]
    simp [migrateSecrets, hnone]

def plainWorld : World := ⟨[nightly], none, ⟨none, false⟩⟩

theorem migrate_keeps_secrets_nightly :
    (migrateSecrets localEnv sealedJson sealing plainWorld).2.profiles = [sealedNightly] ∧
      resolveProfilePassword sealing.secrets sealedNightly =
        resolveProfilePassword sealing.secrets nightly := by
  have hopens : sealing.secrets.Opens := by
    rintro name plain blob ⟨⟩
    rfl
  have hprofiles : (migrateSecrets localEnv sealedJson sealing plainWorld).2.profiles =
      [sealedNightly] := by decide
  have hkept := (migrate_keeps_secrets localEnv sealedJson sealing plainWorld hopens).1
  rw [hprofiles] at hkept
  cases hkept with
  | cons h => exact ⟨hprofiles, h.2.1⟩

end Nasty.Backup.Service
