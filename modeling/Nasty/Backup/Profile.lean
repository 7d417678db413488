import Mathlib.Data.List.Infix
import Nasty.Cron.Posix

/-!
# Backup profiles

A profile holds the repository password and its target's secret, each as plaintext, as a blob
sealed by the secrets backend, or as both. Four functions move these fields: redaction for
responses, carrying forward on update, sealing before a save, and resolution before use. The
same code stands in the source for the password and for each kind of target; here it is one
definition on the pair of fields (`carrySecret`, `sealSecret`, `resolveSecret`).

Three libraries are parameters: the `cron` crate, the `url` crate and `systemd-creds`.
-/

namespace Nasty.Backup.Service

open Cron

structure EncryptedBlob where
  text : String
  deriving DecidableEq

structure BackupRunResult where
  timestamp : String
  success : Bool
  message : String
  durationSecs : ℕ
  bytesAdded : Option ℕ
  filesNew : Option ℕ
  filesChanged : Option ℕ
  deriving DecidableEq

inductive BackupTarget
  | localPath (path : String)
  | s3 (endpoint bucket accessKey : String) (secretKey : Option String)
      (secretKeyEncrypted : Option EncryptedBlob) (region : Option String)
  | sftp (host user path : String) (port : Option ℕ)
  | rest (url : String) (username password : Option String)
      (passwordEncrypted : Option EncryptedBlob)
  | b2 (bucket bucketId accountId : String) (accountKey : Option String)
      (accountKeyEncrypted : Option EncryptedBlob)
  deriving DecidableEq

structure BackupProfile where
  id : String
  name : String
  enabled : Bool
  sources : List String
  target : BackupTarget
  schedule : Option String
  password : Option String
  passwordEncrypted : Option EncryptedBlob
  repoInitialized : Bool
  lastRun : Option BackupRunResult
  trustedCacert : Option String
  deriving DecidableEq

inductive BackupError
  | notFound (id : String)
  | alreadyExists (name : String)
  | failed (message : String)
  | io (error : String)
  deriving DecidableEq

def BackupError.message : BackupError → String
  | notFound id => s!"profile not found: {id}"
  | alreadyExists name => s!"profile already exists: {name}"
  | failed message => s!"backup failed: {message}"
  | io error => s!"io error: {error}"

/-! ## Parameters -/

/-- The `url` crate. Setters that it refuses leave the URL as it is. -/
structure UrlCrate where
  Url : Type
  parse : String → Option Url
  username : Url → String
  password : Url → Option String
  setUsername : Url → String → Url
  setPassword : Url → Option String → Url
  text : Url → String
  parse_cleared : ∀ {s u u'}, parse s = some u →
    parse (text (setPassword (setUsername u "") none)) = some u' →
    username u' = "" ∧ password u' = none

/-- The answers of `systemd-creds`; both requests may fail. -/
structure Secrets where
  encrypt : String → String → Except String EncryptedBlob
  decrypt : String → EncryptedBlob → Except String String

def Secrets.Opens (secrets : Secrets) : Prop :=
  ∀ name plain blob, secrets.encrypt name plain = .ok blob → secrets.decrypt name blob = .ok plain

structure Env (τ : Type) [LinearOrder τ] where
  crate : Crate τ
  url : UrlCrate

/-! ## URLs -/

def schemeLength (cs : List Char) : Option ℕ :=
  if (cs.take 8).map Char.toLower = "https://".toList then some 8
  else if (cs.take 7).map Char.toLower = "http://".toList then some 7
  else none

def isAuthorityEnd (c : Char) : Bool :=
  Text.isWhitespace c || c ∈ ['/', '?', '#', ')', ']']

/-- The loop of `redact_url_credentials`; each round consumes a character of the rest. -/
def redactLoop : ℕ → List Char → List Char
  | 0, cs => cs
  | _ + 1, [] => []
  | fuel + 1, c :: cs =>
    match schemeLength (c :: cs) with
    | none => c :: redactLoop fuel cs
    | some n =>
      let rest := (c :: cs).drop n
      let authority := rest.takeWhile (! isAuthorityEnd ·)
      let tail := rest.drop authority.length
      (c :: cs).take n ++
        match Text.rsplitOnce '@' authority with
        | some (_, host) => "[redacted]@".toList ++ redactLoop fuel (host ++ tail)
        | none => authority ++ redactLoop fuel tail

def redactUrlCredentials (message : String) : String :=
  String.ofList (redactLoop message.toList.length message.toList)

def hexValue (b : UInt8) : Option UInt8 :=
  if 48 ≤ b ∧ b ≤ 57 then some (b - 48)
  else if 65 ≤ b ∧ b ≤ 70 then some (b - 55)
  else if 97 ≤ b ∧ b ≤ 102 then some (b - 87)
  else none

/-- `u8::from_str_radix` of two bytes in base 16, which takes a plus sign. -/
def hexByte (a b : UInt8) : Option UInt8 :=
  if a = 43 then hexValue b
  else do
    let high ← hexValue a
    let low ← hexValue b
    some (16 * high + low)

def percentDecode : List UInt8 → Option (List UInt8)
  | [] => some []
  | b :: bytes =>
    if b = 37 then
      match bytes with
      | high :: low :: rest => do
        let byte ← hexByte high low
        let decoded ← percentDecode rest
        some (byte :: decoded)
      | _ => none
    else (percentDecode bytes).map (b :: ·)

def decodeUrlUserinfo (value : String) : Option String :=
  (percentDecode value.toUTF8.data.toList).bind fun bytes => String.fromUTF8? ⟨bytes.toArray⟩

section Url

variable (crate : UrlCrate)

def hasUserinfo (parsed : crate.Url) : Bool :=
  ¬ (crate.username parsed = "" ∧ crate.password parsed = none)

def clearUserinfo (parsed : crate.Url) : String :=
  crate.text (crate.setPassword (crate.setUsername parsed "") none)

def stripUrlUserinfo (value : String) : String :=
  match crate.parse value with
  | none => redactUrlCredentials value
  | some parsed => if hasUserinfo crate parsed then clearUserinfo crate parsed else value

/-- Returns whether the target was changed. -/
def normalizeRestUrlUserinfo : BackupTarget → Bool × BackupTarget
  | .rest url username password passwordEncrypted =>
    match crate.parse url with
    | none => (false, .rest url username password passwordEncrypted)
    | some parsed =>
      if hasUserinfo crate parsed then
        let username :=
          if username.all (· = "") then decodeUrlUserinfo (crate.username parsed) else username
        let password :=
          if password.isNone ∧ passwordEncrypted.isNone then
            (crate.password parsed).bind decodeUrlUserinfo
          else password
        (true, .rest (clearUserinfo crate parsed) username password passwordEncrypted)
      else (false, .rest url username password passwordEncrypted)
  | target => (false, target)

end Url

/-! ## Redaction -/

def redactedSecret (plain : Option String) : Option String := plain.map fun _ => "***"

def BackupTarget.redacted (crate : UrlCrate) : BackupTarget → BackupTarget
  | s3 endpoint bucket accessKey secretKey _ region =>
    s3 endpoint bucket accessKey (redactedSecret secretKey) none region
  | b2 bucket bucketId accountId accountKey _ =>
    b2 bucket bucketId accountId (redactedSecret accountKey) none
  | rest url username password _ =>
    rest (stripUrlUserinfo crate url) username (redactedSecret password) none
  | target => target

def BackupProfile.redacted (crate : UrlCrate) (p : BackupProfile) : BackupProfile :=
  { p with
    password := redactedSecret p.password
    passwordEncrypted := none
    target := p.target.redacted crate
    lastRun := p.lastRun.map fun r => { r with message := redactUrlCredentials r.message } }

/-! ## Secrets -/

section

variable (secrets : Secrets)

def profilePasswordName (profileId : String) : String := s!"nasty.backup.{profileId}.password"
def s3SecretName (targetId : String) : String := s!"nasty.backup.{targetId}.s3.secret_key"
def b2SecretName (targetId : String) : String := s!"nasty.backup.{targetId}.b2.account_key"
def restSecretName (targetId : String) : String := s!"nasty.backup.{targetId}.rest.password"

/-- A blob is kept; a plaintext without one is sealed, and kept when sealing fails. -/
def sealSecret (name : String) (plain : Option String) (blob : Option EncryptedBlob) :
    Option String × Option EncryptedBlob :=
  match blob, plain with
  | none, some plain =>
    match secrets.encrypt name plain with
    | .ok blob => (none, some blob)
    | .error _ => (some plain, none)
  | blob, plain => (plain, blob)

def encryptTargetSecretsInPlace (targetId : String) : BackupTarget → BackupTarget
  | .s3 endpoint bucket accessKey secretKey blob region =>
    let (secretKey, blob) := sealSecret secrets (s3SecretName targetId) secretKey blob
    .s3 endpoint bucket accessKey secretKey blob region
  | .b2 bucket bucketId accountId accountKey blob =>
    let (accountKey, blob) := sealSecret secrets (b2SecretName targetId) accountKey blob
    .b2 bucket bucketId accountId accountKey blob
  | .rest url username password blob =>
    let (password, blob) := sealSecret secrets (restSecretName targetId) password blob
    .rest url username password blob
  | target => target

def encryptProfileSecretsInPlace (p : BackupProfile) : BackupProfile :=
  let (password, passwordEncrypted) :=
    sealSecret secrets (profilePasswordName p.id) p.password p.passwordEncrypted
  { p with
    password, passwordEncrypted, target := encryptTargetSecretsInPlace secrets p.id p.target }

def encryptedTargetSet : BackupTarget → Bool
  | .s3 _ _ _ _ blob _ => blob.isSome
  | .b2 _ _ _ _ blob => blob.isSome
  | .rest _ _ _ blob => blob.isSome
  | _ => false

def carrySecret (plain : Option String) (blob : Option EncryptedBlob)
    (existingPlain : Option String) (existingBlob : Option EncryptedBlob) :
    Option String × Option EncryptedBlob :=
  if plain.isNone ∧ blob.isNone then (existingPlain, existingBlob) else (plain, blob)

def carryForwardTarget : BackupTarget → BackupTarget → BackupTarget
  | .s3 endpoint bucket accessKey secretKey blob region, .s3 _ _ _ existing existingBlob _ =>
    let (secretKey, blob) := carrySecret secretKey blob existing existingBlob
    .s3 endpoint bucket accessKey secretKey blob region
  | .b2 bucket bucketId accountId accountKey blob, .b2 _ _ _ existing existingBlob =>
    let (accountKey, blob) := carrySecret accountKey blob existing existingBlob
    .b2 bucket bucketId accountId accountKey blob
  | .rest url username password blob, .rest _ _ existing existingBlob =>
    let (password, blob) := carrySecret password blob existing existingBlob
    .rest url username password blob
  | update, _ => update

def carryForwardExistingSecrets (update existing : BackupProfile) : BackupProfile :=
  let (password, passwordEncrypted) := carrySecret update.password update.passwordEncrypted
    existing.password existing.passwordEncrypted
  { update with
    password, passwordEncrypted, target := carryForwardTarget update.target existing.target }

def resolveSecret (name : String) (plain : Option String) (blob : Option EncryptedBlob) :
    Except BackupError String :=
  match blob, plain with
  | some blob, _ => (secrets.decrypt name blob).mapError fun e => .failed s!"decrypt {name}: {e}"
  | none, some plain => .ok plain
  | none, none =>
    .error (.failed (s!"secret '{name}' is neither encrypted nor plaintext " ++
      "(profile is missing required field)"))

def resolveProfilePassword (p : BackupProfile) : Except BackupError String :=
  resolveSecret secrets (profilePasswordName p.id) p.password p.passwordEncrypted

structure ResolvedTargetSecrets where
  s3SecretKey : Option String
  b2AccountKey : Option String
  restPassword : Option String
  deriving DecidableEq

def resolveSecrets (targetId : String) : BackupTarget → Except BackupError ResolvedTargetSecrets
  | .s3 _ _ _ secretKey blob _ =>
    (resolveSecret secrets (s3SecretName targetId) secretKey blob).map fun s =>
      ⟨some s, none, none⟩
  | .b2 _ _ _ accountKey blob =>
    (resolveSecret secrets (b2SecretName targetId) accountKey blob).map fun s =>
      ⟨none, some s, none⟩
  | .rest _ username password blob =>
    if username.isSome then
      (resolveSecret secrets (restSecretName targetId) password blob).map fun s =>
        ⟨none, none, some s⟩
    else .ok ⟨none, none, none⟩
  | _ => .ok ⟨none, none, none⟩

end

/-! ## Validation -/

def validateSources (sources : List String) : Except BackupError Unit :=
  .refuse (sources = [] ∨ ∃ source ∈ sources, Text.trim source.toList = [])
    (.failed "backup sources cannot be empty")

def validateB2Target : BackupTarget → Except BackupError Unit
  | .b2 bucket bucketId accountId _ _ =>
    .checkAll (fun (label, value) =>
        .refuse (Text.trim value.toList = []) (.failed s!"B2 {label} is required"))
      [("bucket name", bucket), ("bucket ID", bucketId), ("application key ID", accountId)]
  | _ => .ok ()

def normalizeSchedule {τ : Type} [LinearOrder τ] (crate : Crate τ) (now : τ) :
    Option String → Except BackupError (Option String)
  | none => .ok none
  | some schedule =>
    let expression := Text.trim schedule.toList
    let text := String.ofList expression
    if expression = [] then .ok none
    else
      match Cron.Backup.parseCron crate expression with
      | .error reason =>
        .error (.failed s!"schedule '{text}' is not a valid cron expression: {reason}")
      | .ok parsed =>
        if (parsed.nextAfter now).isNone then
          .error (.failed s!"schedule '{text}' has no future occurrence")
        else .ok (some text)

def validatePemCert (pem : String) : Except BackupError Unit := do
  let trimmed := Text.trim pem.toList
  .refuse (trimmed = [])
    (.failed "trusted_cacert: empty input — leave the field unset to remove")
  .refuse (¬ "-----BEGIN CERTIFICATE-----".toList <:+: trimmed ∨
      ¬ "-----END CERTIFICATE-----".toList <:+: trimmed)
    (.failed ("trusted_cacert: not a PEM certificate — paste the contents of a .pem / .crt file " ++
      "starting with -----BEGIN CERTIFICATE-----"))

def validateTrustedCacert (p : BackupProfile) : Except BackupError Unit :=
  match p.trustedCacert with
  | some pem => validatePemCert pem
  | none => .ok ()

/-! ## Changes of definition -/

def backupDefinitionMatches (left right : BackupProfile) : Bool :=
  left.sources = right.sources ∧ left.target = right.target ∧ left.password = right.password ∧
    left.passwordEncrypted = right.passwordEncrypted ∧ left.trustedCacert = right.trustedCacert

def invalidateLastRunIfDefinitionChanged (update existing : BackupProfile) : BackupProfile :=
  if backupDefinitionMatches update existing then update else { update with lastRun := none }

end Nasty.Backup.Service
