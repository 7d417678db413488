import Nasty.Subvolumes.Commands

/-!
# The filesystem service

The operations of `FilesystemService` that create, mount, change and forget bcachefs filesystems, as
processes over the commands they run. A filesystem is registered under a name in the state file: an
entry holds its UUID, its devices and its mount options. Encryption keys are files named after the
filesystem, in the clear (`.key`) or sealed by the TPM (`.tpm`).

The state file is written by opening it, which empties it, and then filling it: these are two
commands here, so that another operation, or a crash, may come in between.
-/

namespace Nasty.Storage

open Proc
open Subvolumes (mountPoint)

abbrev Name := List Char

inductive FilesystemError
  | commandFailed (text : String)
  | notFound (name : Name)
  | alreadyExists (name : Name)
  | deviceInUse (text : String)
  | invalidInput (text : String)
  | noDevices
  | deviceNotFound (path : Name)
  | io (text : String)

def FilesystemError.message : FilesystemError → String
  | commandFailed text => "bcachefs command failed: " ++ text
  | notFound name => "filesystem not found: " ++ .ofList name
  | alreadyExists name => "filesystem already exists: " ++ .ofList name
  | deviceInUse text => "device " ++ text ++ " is already in use"
  | invalidInput text => "invalid input: " ++ text
  | noDevices => "no devices specified"
  | deviceNotFound path => "device not found: " ++ .ofList path
  | io text => "io error: " ++ text

/-! ## Filesystems and their registrations -/

structure FsMountOptions where
  uuid : Option Name
  devices : List Name
  mounted : Option Bool
  encrypted : Option Bool
  versionUpgrade : Option Name
  degraded : Option Bool
  verbose : Option Bool
  fsck : Option Bool
  journalFlushDisabled : Option Bool
  journalFlushDelay : Option ℕ
  legacyIoScheduler : Option Name

def FsMountOptions.default : FsMountOptions :=
  ⟨none, [], none, none, none, none, none, none, none, none, none⟩

def FsMountOptions.knownUuid (opts : FsMountOptions) : Option Name := opts.uuid.filter (· ≠ [])

abbrev FsState := AList fun _ : Name => FsMountOptions

structure FilesystemDevice where
  path : Name
  missing : Option Bool

structure Filesystem where
  name : Name
  uuid : Name
  devices : List FilesystemDevice
  mountPoint : Option Name
  mounted : Bool
  encrypted : Option Bool

def Filesystem.paths (fs : Filesystem) : List Name := fs.devices.map (·.path)

def selectFilesystemByName (filesystems : List Filesystem) (name : Name) :
    Except FilesystemError Filesystem :=
  match filesystems.filter (·.name = name) with
  | [] => .error (.notFound name)
  | [fs] => .ok fs
  | _ => .error (.invalidInput ("filesystem name '" ++ .ofList name ++
      "' is ambiguous; identify the filesystem by UUID"))

def selectFilesystemForMount (filesystems : List Filesystem) (name : Name) :
    Option Name → Except FilesystemError Filesystem
  | some expectedUuid =>
    match filesystems.find? (·.uuid = expectedUuid) with
    | some fs => .ok fs
    | none => .error (.commandFailed ("filesystem '" ++ .ofList name ++ "' with expected UUID " ++
        .ofList expectedUuid ++ " is not available; refusing to mount a different filesystem"))
  | none => selectFilesystemByName filesystems name

def flag (text : Name) : Option Bool → List Name
  | some true => [text]
  | _ => []

def buildMountOpts (opts : FsMountOptions) : Name :=
  Text.join [','] (["prjquota".toList] ++
    ((opts.versionUpgrade.filter fun v => v ≠ [] ∧ v ≠ "none".toList).map
      ("version_upgrade=".toList ++ ·)).toList ++
    flag "degraded".toList opts.degraded ++ flag "verbose".toList opts.verbose ++
    flag "fsck".toList opts.fsck ++
    flag "journal_flush_disabled".toList opts.journalFlushDisabled ++
    (opts.journalFlushDelay.map ("journal_flush_delay=".toList ++ Nat.toDigits 10 ·)).toList)

/-! ## Requests -/

structure CreateFilesystemRequest where
  name : Name
  encryption : Option Bool
  passphrase : Option Name
  storeKey : Option Bool
  bindToTpm : Option Bool
  versionUpgrade : Option Name
  journalFlushDelay : Option ℕ

structure DestroyFilesystemRequest where
  name : Name
  confirmName : Name

structure ForgetUnavailableRequest where
  name : Name
  confirmName : Name
  expectedUuid : Name

structure UpdateFilesystemOptionsRequest where
  name : Name
  compression : Option Name
  backgroundCompression : Option Name
  foregroundTarget : Option Name
  backgroundTarget : Option Name
  promoteTarget : Option Name
  metadataTarget : Option Name
  errorAction : Option Name
  erasureCode : Option Bool
  versionUpgrade : Option Name
  degraded : Option Bool
  verbose : Option Bool
  fsck : Option Bool
  journalFlushDisabled : Option Bool
  journalFlushDelay : Option ℕ
  dataChecksum : Option Name
  metadataChecksum : Option Name
  dataReplicas : Option ℕ
  metadataReplicas : Option ℕ
  moveIosInFlight : Option ℕ
  moveBytesInFlight : Option Name

/-! ## Commands -/

inductive NeedsUnlock
  | no
  | yes
  | unknown

inductive Cmd
  /-- The lock `block_mutations`. -/
  | lockMutations
  | unlockMutations
  | readState
  /-- Open the state file for writing, in order to change the registration of `fsName`. -/
  | openState (fsName : Name)
  | fillState (fsName : Name) (state : FsState)
  /-- `FilesystemService::list`, from the cache or by discovery. -/
  | list
  | dropCache
  | scrubRunning (fsName : Name)
  | isMountpoint (path : Name)
  /-- `mounted_fs_uuid_at`, and the same with retries. -/
  | uuidAt (path : Name)
  | uuidAfterMount (path : Name)
  /-- `get_fs_uuid`. -/
  | uuidOf (device : Name)
  | createDir (path : Name)
  | removeDir (path : Name)
  | showSuper (device : Name)
  /-- The sealed key, if there is a `.tpm` file. -/
  | unsealKey (fsName : Name)
  | readKey (fsName : Name)
  | writeKey (fsName : Name) (key : Name)
  | removeKey (fsName : Name)
  /-- Seal a key and write the `.tpm` file. -/
  | writeSealed (fsName : Name) (key : Name)
  | removeSealed (fsName : Name)
  | tpmAvailable
  | keyLoaded (uuid : Name)
  | unlock (device key : Name)
  | mount (opts : Name) (devices : List Name) (path : Name)
  | remount (opts : Name) (path : Name)
  | umount (path : Name)
  | umountUuid (uuid : Name)
  /-- Plan a creation, and prepare the devices; both are checked elsewhere. -/
  | planCreate (req : CreateFilesystemRequest)
  | prepareDevices (req : CreateFilesystemRequest)
  /-- `bcachefs format`, and whether it exits with success. -/
  | format (fsName : Name) (devices : List Name) (passphrase : Option Name)
  | isBcachefs (device : Name)
  | wipe (device : Name)
  | detachLoops (path : Name)
  | uuidVisible (uuid : Name)
  | writeOpt (uuid : Name) (name : String) (value : Name)
  /-- A record for the user interface. -/
  | note (what : String) (fsName : Name)

abbrev Cmd.Answer : Cmd → Type
  | lockMutations | unlockMutations | dropCache | umountUuid _ | note .. | removeDir _ => Unit
  | readState => Except String FsState
  | list => Except FilesystemError (List Filesystem)
  | scrubRunning _ | uuidVisible _ => Except FilesystemError Bool
  | isMountpoint _ | tpmAvailable | keyLoaded _ | isBcachefs _ => Bool
  | uuidAt _ => Except FilesystemError (Option Name)
  | uuidAfterMount _ | uuidOf _ => Option Name
  | showSuper _ => NeedsUnlock
  | unsealKey _ | readKey _ => Option (Except String Name)
  | planCreate _ | detachLoops _ => Except FilesystemError Unit
  | prepareDevices _ => Except FilesystemError (List Name)
  | format .. => Except String Bool
  | _ => Except String Unit

abbrev Service := Proc Cmd Cmd.Answer FilesystemError

def run (c : Cmd) : Service c.Answer := perform c

abbrev orCommandFailed {α : Type} : Except String α → Service α := orFail .commandFailed

def mutating {α : Type} (body : Service α) : Service α :=
  holding .lockMutations .unlockMutations body

/-! ## The state file -/

def loadFsStateStrict : Service FsState := do orCommandFailed (← run .readState)

/-- A file that cannot be read is taken for an empty one. -/
def loadFsState : Service FsState := do
  return match ← run .readState with
    | .ok state => state
    | .error _ => ∅

def saveFsState (fsName : Name) (state : FsState) : Service Unit := do
  orFail .io (← run (.openState fsName))
  orFail .io (← run (.fillState fsName state))

def saveFsMountedWithOpts (fsName : Name) (opts : FsMountOptions) : Service Unit := do
  let state ← loadFsState
  ignore (saveFsState fsName (state.insert fsName { opts with mounted := some true }))

def saveFsUnmounted (fsName : Name) (fs : Filesystem) : Service Unit := do
  let state ← loadFsState
  let opts := (state.lookup fsName).getD .default
  ignore (saveFsState fsName (state.insert fsName
    { opts with uuid := some fs.uuid, devices := fs.paths, mounted := some false }))

def forgetFs (fsName : Name) : Service Unit := do
  let state ← loadFsState
  onlyIf (state.lookup fsName).isSome (ignore (saveFsState fsName (state.erase fsName)))

/-! ## Identity -/

def listing : Service (List Filesystem) := do ofExcept (← run .list)

/-- The UUID a name is registered with; an entry without one is refused. -/
def expectedUuid (state : FsState) (name : Name) : Except FilesystemError (Option Name) :=
  match state.lookup name with
  | none => .ok none
  | some opts =>
    match opts.knownUuid with
    | some uuid => .ok (some uuid)
    | none => .error (.commandFailed ("filesystem '" ++ .ofList name ++
        "' has legacy state without a UUID; refusing a name-only operation"))

def get (name : Name) : Service Filesystem := do
  let state ← loadFsState
  let expected ← ofExcept (expectedUuid state name)
  let filesystems ← listing
  ofExcept (selectFilesystemForMount filesystems name expected)

def verifyDevicePathsUuid (paths : List Name) (uuid : Name) : Service Unit :=
  each paths fun path => do
    let actual ← run (.uuidOf path)
    refuse (actual ≠ some uuid) (.commandFailed ("device " ++ .ofList path ++
      " no longer belongs to filesystem UUID " ++ .ofList uuid ++ "; refusing the operation"))

def verifyMountpointIdentity (path uuid : Name) : Service Unit := do
  let actual ← ofExcept (← run (.uuidAt path))
  refuse (actual ≠ some uuid) (.commandFailed ("mount point " ++ .ofList path ++
    " does not contain expected filesystem UUID " ++ .ofList uuid ++ "; refusing the operation"))

def mismatchText (name uuid : Name) (actual : Option Name) : String :=
  "Mount point " ++ .ofList (mountPoint name) ++ " belongs to " ++
    (match actual with
      | some uuid => .ofList uuid
      | none => "an unknown or non-bcachefs filesystem") ++
    ", but '" ++ .ofList name ++ "' is tracked as UUID " ++ .ofList uuid ++
    ". NASty refused to use this mount."

/-! ## Keys -/

def keyPath (name : Name) : String := "/var/lib/nasty/keys/" ++ .ofList name ++ ".key"

def plainKey (name : Name) : Service (Option Name) := do
  match ← run (.readKey name) with
  | some (.ok key) => return some key
  | some (.error e) => fail (.commandFailed ("read key for '" ++ .ofList name ++ "' at " ++
      keyPath name ++ ": " ++ e))
  | none => return none

/-- The sealed key if it can be unsealed, or else the one in the clear. -/
def readUnlockKey (name : Name) : Service (Option Name) := do
  match ← run (.unsealKey name) with
  | some (.ok key) => return some key
  | _ => plainKey name

def unlockWithKey (device key : Name) : Service Unit := do
  orCommandFailed (← run (.unlock device key))

def deleteKey (name : Name) : Service Unit := do
  orFail (fun e => .commandFailed ("delete key for '" ++ .ofList name ++ "' at " ++ keyPath name ++
    ": " ++ e)) (← run (.removeKey name))

def requireEncrypted (fs : Filesystem) (name : Name) : Service Unit :=
  refuse (fs.encrypted ≠ some true)
    (.invalidInput ("filesystem '" ++ .ofList name ++ "' is not encrypted"))

def keyToSeal (name : Name) : Option (Except String Name) → Service Name
  | some (.ok key) => pure key
  | some (.error e) => fail (.commandFailed ("no stored key for '" ++ .ofList name ++ "' at " ++
      keyPath name ++ ": " ++ e ++ " — bind requires an existing .key"))
  | none => fail (.commandFailed ("no stored key for '" ++ .ofList name ++ "' at " ++
      keyPath name ++
      ": No such file or directory (os error 2) — bind requires an existing .key"))

def tpmBind (name : Name) : Service Unit := do
  let fs ← get name
  requireEncrypted fs name
  let available ← run .tpmAvailable
  refuse (available = false) (.commandFailed "TPM2 not available on this host")
  let key ← keyToSeal name (← run (.readKey name))
  orCommandFailed (← run (.writeSealed name key))

def tpmUnbind (name : Name) : Service Unit := do orCommandFailed (← run (.removeSealed name))

/-! ## Mounting -/

/-- Why a mount failed, for the user interface. What is read to classify the failure is left out. -/
def recordMountFailure (name : Name) (text : String) : Service Unit := do
  run (.note text name)
  run .dropCache

def unlockIfNeeded (name : Name) (fs : Filesystem) (device : Name) : Service Bool := do
  match ← run (.showSuper device) with
  | .no | .unknown => return false
  | .yes =>
    match ← readUnlockKey name with
    | some key =>
      unlockWithKey device key
      return true
    | none =>
      let loaded ← run (.keyLoaded fs.uuid)
      refuse (loaded = false) (.commandFailed ("encrypted filesystem '" ++ .ofList name ++
        "' is locked — unlock it first, then mount."))
      return false

def verifyMounted (name : Name) (fs : Filesystem) (mounted : Option Name) : Service Unit := do
  if mounted = some fs.uuid then pure ()
  else
    let rollback ← run (.umount (mountPoint name))
    let text := mismatchText name fs.uuid mounted
    recordMountFailure name text
    fail (.commandFailed (match rollback with
      | .ok () => text
      | .error e => text ++ " Rollback unmount also failed: " ++ e))

def savedOpts (opts : FsMountOptions) (fs : Filesystem) (unlocked : Bool) : FsMountOptions :=
  { opts with
    uuid := some fs.uuid
    devices := fs.paths
    encrypted := if unlocked then some true else opts.encrypted }

def reselect (name : Name) (fs : Filesystem) : Service Filesystem := do
  run .dropCache
  let filesystems ← listing
  ofExcept (selectFilesystemForMount filesystems name (some fs.uuid))

def verifyDevices (name : Name) (fs : Filesystem) : Service Unit := do
  match ← attempt (verifyDevicePathsUuid fs.paths fs.uuid) with
  | .ok () => pure ()
  | .error e =>
    recordMountFailure name (mismatchText name fs.uuid none)
    fail e

def mountDevices (name : Name) (opts : FsMountOptions) (fs : Filesystem) : Service Unit := do
  match ← run (.mount (buildMountOpts opts) fs.paths (mountPoint name)) with
  | .ok () => pure ()
  | .error e =>
    recordMountFailure name e
    fail (.commandFailed e)

def mountUnmounted (name : Name) (opts : FsMountOptions) (fs : Filesystem) : Service Filesystem := do
  orFail .io (← run (.createDir (mountPoint name)))
  verifyDevices name fs
  let unlocked ← unlockIfNeeded name fs (fs.paths.headD [])
  mountDevices name opts fs
  verifyMounted name fs (← run (.uuidAfterMount (mountPoint name)))
  saveFsMountedWithOpts name (savedOpts opts fs unlocked)
  run (.note "mounted" name)
  reselect name fs

/-- Something is mounted there already, though the listing does not show it. -/
def adoptMount (name : Name) (fs : Filesystem) : Service Filesystem := do
  let actual := match ← run (.uuidAt (mountPoint name)) with
    | .ok uuid => uuid
    | .error _ => none
  if actual = some fs.uuid then reselect name fs
  else
    recordMountFailure name (mismatchText name fs.uuid actual)
    fail (.commandFailed (mismatchText name fs.uuid actual))

def mountSelected (name : Name) (opts : FsMountOptions) (fs : Filesystem) : Service Filesystem := do
  let occupied ← run (.isMountpoint (mountPoint name))
  if occupied then adoptMount name fs else mountUnmounted name opts fs

def mountWithOpts (name : Name) (opts : FsMountOptions) : Service Filesystem := do
  let filesystems ← listing
  match selectFilesystemForMount filesystems name opts.knownUuid with
  | .error e =>
    onlyIf opts.knownUuid.isSome (recordMountFailure name e.message)
    fail e
  | .ok fs => if fs.mounted then pure fs else mountSelected name opts fs

/-- An entry without a UUID is refused. -/
def mountOptions (state : FsState) (name : Name) (forceDegraded : Bool) :
    Except FilesystemError FsMountOptions :=
  match state.lookup name with
  | none => .ok { FsMountOptions.default with degraded := if forceDegraded then some true else none }
  | some opts =>
    if opts.knownUuid = none then .error (.commandFailed ("filesystem '" ++ .ofList name ++
      "' has legacy state without a UUID; refusing a name-only mount"))
    else .ok { opts with degraded := if forceDegraded then some true else opts.degraded }

def mountMaybeDegraded (name : Name) (forceDegraded : Bool) : Service Filesystem :=
  mutating do
    let state ← loadFsState
    let opts ← ofExcept (mountOptions state name forceDegraded)
    mountWithOpts name opts

def mount (name : Name) : Service Filesystem := mountMaybeDegraded name false

def requireNoScrub (name : Name) (verb : String) : Service Unit := do
  let running ← ofExcept (← run (.scrubRunning name))
  refuse running (.commandFailed ("cannot " ++ verb ++ " filesystem '" ++ .ofList name ++
    "' while a scrub is running"))

def Filesystem.activeMount (fs : Filesystem) : Option Name :=
  if fs.mounted then fs.mountPoint else none

def umountActive (fs : Filesystem) : Service Unit :=
  match fs.activeMount with
  | none => pure ()
  | some path => do
    verifyMountpointIdentity path fs.uuid
    orCommandFailed (← run (.umount path))

def unmount (name : Name) : Service Unit :=
  mutating do
    let fs ← get name
    requireNoScrub name "unmount"
    umountActive fs
    saveFsUnmounted name fs
    run .dropCache

/-! ## Options -/

def differs {α : Type} [DecidableEq α] (requested current : Option α) : Bool :=
  requested.isSome && requested ≠ current

def mountChanged (req : UpdateFilesystemOptionsRequest) (current : FsMountOptions) : Bool :=
  differs req.versionUpgrade current.versionUpgrade || differs req.degraded current.degraded ||
    differs req.verbose current.verbose || differs req.fsck current.fsck ||
    differs req.journalFlushDisabled current.journalFlushDisabled ||
    differs req.journalFlushDelay current.journalFlushDelay

def updatedOpts (req : UpdateFilesystemOptionsRequest) (fs : Filesystem) (opts : FsMountOptions) :
    FsMountOptions :=
  { opts with
    uuid := some fs.uuid
    devices := fs.paths
    versionUpgrade := req.versionUpgrade.or opts.versionUpgrade
    degraded := req.degraded.or opts.degraded
    verbose := req.verbose.or opts.verbose
    fsck := req.fsck.or opts.fsck
    journalFlushDisabled := req.journalFlushDisabled.or opts.journalFlushDisabled
    journalFlushDelay := req.journalFlushDelay.or opts.journalFlushDelay }

def remountWith (name : Name) (fs : Filesystem) : Service Unit := do
  match fs.mountPoint with
  | none => fail (.commandFailed ("filesystem '" ++ .ofList name ++
      "' has no active mount point to remount"))
  | some path =>
    verifyMountpointIdentity path fs.uuid
    let state ← loadFsState
    let opts := (state.lookup name).getD .default
    orCommandFailed (← run (.remount ("remount,".toList ++ buildMountOpts opts) path))

/-- The highest level of an algorithm; `none` if it takes no level. -/
def maxLevel (algorithm : Name) : Except String (Option ℕ) :=
  if algorithm = "lz4".toList then .ok none
  else if algorithm = "zstd".toList then .ok (some 22)
  else if algorithm = "gzip".toList then .ok (some 9)
  else .error ("unknown compression algorithm '" ++ .ofList algorithm ++ "'")

def validateLevel (algorithm level : Name) : Option ℕ → Except String Unit
  | none => .error (.ofList algorithm ++ " does not take a compression level")
  | some max =>
    match Text.unsigned (2 ^ 32 - 1) level with
    | none => .error ("compression level '" ++ .ofList level ++ "' is not a number")
    | some n => .refuse (n < 1 ∨ n > max) (.ofList algorithm ++
        " compression level must be between 1 and " ++ toString max ++ " (got " ++ toString n ++ ")")

def validateCompression (spec : Name) : Except String Unit :=
  let spec := Text.trim spec
  if spec = [] ∨ spec = "none".toList then .ok ()
  else match Text.splitOnce ':' spec with
    | some (algorithm, level) => do validateLevel algorithm level (← maxLevel algorithm)
    | none => do
      let _ ← maxLevel spec
      return ()

def checkCompression (req : UpdateFilesystemOptionsRequest) : Except FilesystemError Unit :=
  .checkAll (fun spec => (validateCompression spec).mapError .invalidInput)
    (req.compression.toList ++ req.backgroundCompression.toList)

@[irreducible] def runtimeOpts (req : UpdateFilesystemOptionsRequest) : List (String × Name) :=
  let text (name : String) (value : Option Name) := (value.map (name, ·)).toList
  let number (name : String) (value : Option ℕ) := text name (value.map (Nat.toDigits 10))
  text "compression" req.compression ++
    text "background_compression" req.backgroundCompression ++
    text "foreground_target" req.foregroundTarget ++
    text "background_target" req.backgroundTarget ++ text "promote_target" req.promoteTarget ++
    text "metadata_target" req.metadataTarget ++ text "errors" req.errorAction ++
    text "erasure_code" (req.erasureCode.map fun on => if on then ['1'] else ['0']) ++
    text "data_checksum" req.dataChecksum ++ text "metadata_checksum" req.metadataChecksum ++
    number "data_replicas" req.dataReplicas ++ number "metadata_replicas" req.metadataReplicas ++
    number "move_ios_in_flight" req.moveIosInFlight ++
    text "move_bytes_in_flight" req.moveBytesInFlight ++
    number "journal_flush_delay" req.journalFlushDelay

def writeOpt (uuid : Name) (opt : String × Name) : Service Unit := do
  orFail (fun e => .commandFailed ("failed to set " ++ opt.1 ++ ": " ++ e))
    (← run (.writeOpt uuid opt.1 (if opt.2 = [] then "none".toList else opt.2)))

def saveUpdated (req : UpdateFilesystemOptionsRequest) (fs : Filesystem) : Service Unit := do
  let state ← loadFsState
  let opts := (state.lookup req.name).getD .default
  ignore (saveFsState req.name (state.insert req.name (updatedOpts req fs opts)))
  remountWith req.name fs

def updateOptions (req : UpdateFilesystemOptionsRequest) : Service Filesystem := do
  let fs ← get req.name
  refuse (fs.mounted = false) (.commandFailed "filesystem must be mounted to update options")
  ofExcept (checkCompression req)
  each (runtimeOpts req) (writeOpt fs.uuid)
  let state ← loadFsState
  onlyIf (mountChanged req ((state.lookup req.name).getD .default)) (saveUpdated req fs)
  run .dropCache
  get req.name

/-! ## Creating and forgetting -/

def removeMountDir {α : Type} (name : Name) (e : FilesystemError) : Service α := do
  run (.removeDir (mountPoint name))
  fail e

/-- A format that fails after it has written its superblocks is taken for a success. -/
def formatDevices (name : Name) (devices : List Name) (passphrase : Option Name) :
    Service Unit := do
  match ← run (.format name devices passphrase) with
  | .error e => removeMountDir name (.commandFailed ("failed to execute bcachefs: " ++ e))
  | .ok true => pure ()
  | .ok false =>
    let written ← run (.isBcachefs (devices.headD []))
    onlyIf (written = false) (removeMountDir name (.commandFailed "bcachefs exited with an error"))

def storeKey (req : CreateFilesystemRequest) (passphrase : Name) : Service Unit :=
  onlyIf (req.storeKey ≠ some false) do orFail .io (← run (.writeKey req.name passphrase))

def unlockCreated (req : CreateFilesystemRequest) (device passphrase : Name) : Service Unit := do
  match ← readUnlockKey req.name with
  | some key => unlockWithKey device key
  | none => unlockWithKey device passphrase

def verifyCreated (name uuid : Name) (mounted : Option Name) : Service Unit := do
  if mounted = some uuid then pure ()
  else
    let rollback ← run (.umount (mountPoint name))
    fail (.commandFailed ("mounted filesystem UUID did not match expected UUID " ++ .ofList uuid ++
      match rollback with
      | .ok () => ""
      | .error e => "; rollback unmount also failed: " ++ e))

def createdOpts (req : CreateFilesystemRequest) (encrypted : Bool) : FsMountOptions :=
  { FsMountOptions.default with
    encrypted := if encrypted then some true else none
    versionUpgrade := req.versionUpgrade
    journalFlushDelay := req.journalFlushDelay }

/-- The passphrase of an encrypted filesystem; the plan has checked that there is one. -/
def CreateFilesystemRequest.secret (req : CreateFilesystemRequest) : Option Name :=
  if req.encryption = some true then req.passphrase else none

def uuidOfCreated (name : Name) : Option Name → Except FilesystemError Name
  | some uuid => if uuid = [] then uuidOfCreated name none else .ok uuid
  | none => .error (.commandFailed ("filesystem '" ++ .ofList name ++
      "' was formatted, but its UUID could not be verified; refusing to mount it"))

def bindCreated (name : Name) : Service Unit := do
  let bound ← attempt (tpmBind name)
  ofExcept (bound.mapError fun e => .commandFailed ("filesystem '" ++ .ofList name ++
    "' created but TPM seal failed: " ++ e.message))

def createOn (req : CreateFilesystemRequest) (devices : List Name) : Service Unit := do
  let device := devices.headD []
  formatDevices req.name devices req.secret
  each req.secret.toList (storeKey req)
  let uuid ← ofExcept (uuidOfCreated req.name (← run (.uuidOf device)))
  verifyDevicePathsUuid devices uuid
  each req.secret.toList (unlockCreated req device)
  let opts := createdOpts req req.secret.isSome
  orCommandFailed (← run (.mount (buildMountOpts opts) devices (mountPoint req.name)))
  verifyCreated req.name uuid (← run (.uuidAfterMount (mountPoint req.name)))
  saveFsMountedWithOpts req.name { opts with uuid := some uuid, devices := devices }
  run .dropCache
  onlyIf (req.bindToTpm = some true) (bindCreated req.name)

def create (req : CreateFilesystemRequest) : Service Unit :=
  mutating do
    ofExcept (← run (.planCreate req))
    let state ← loadFsState
    refuse (state.lookup req.name).isSome (.alreadyExists req.name)
    orFail .io (← run (.createDir (mountPoint req.name)))
    match ← run (.prepareDevices req) with
    | .error e => removeMountDir req.name e
    | .ok devices => createOn req devices

def destroy (req : DestroyFilesystemRequest) : Service Unit := do
  refuse (req.confirmName ≠ req.name)
    (.invalidInput "confirmation name does not match filesystem name")
  mutating do
    let fs ← get req.name
    requireNoScrub req.name "destroy"
    verifyDevicePathsUuid fs.paths fs.uuid
    let occupied ← run (.isMountpoint (mountPoint req.name))
    onlyIf occupied (verifyMountpointIdentity (mountPoint req.name) fs.uuid)
    each fs.activeMount.toList fun path => do
      verifyMountpointIdentity path fs.uuid
      ofExcept (← run (.detachLoops path))
      orCommandFailed (← run (.umount path))
    run (.umountUuid fs.uuid)
    let occupied ← run (.isMountpoint (mountPoint req.name))
    refuse occupied (.commandFailed ("mount point " ++ .ofList (mountPoint req.name) ++
      " is still occupied; refusing to remove it"))
    run (.removeDir (mountPoint req.name))
    each fs.paths fun path => do
      orFail (fun e => .commandFailed ("failed to wipe " ++ .ofList path ++ ": " ++ e))
        (← run (.wipe path))
    forgetFs req.name
    run .dropCache

def validateForgetUnavailable (state : FsState) (req : ForgetUnavailableRequest) :
    Except FilesystemError Unit := do
  .refuse (req.confirmName ≠ req.name)
    (.invalidInput "confirmation name does not match filesystem name")
  match state.lookup req.name with
  | none => .error (.notFound req.name)
  | some opts =>
    match opts.knownUuid with
    | none => .error (.invalidInput ("filesystem '" ++ .ofList req.name ++
        "' has legacy state without a UUID and cannot be safely forgotten"))
    | some uuid => .refuse (uuid ≠ req.expectedUuid) (.invalidInput
        ("expected UUID does not match the persisted UUID for filesystem '" ++ .ofList req.name ++
          "'"))

def forgetUnavailable (req : ForgetUnavailableRequest) : Service Unit :=
  mutating do
    let state ← loadFsStateStrict
    ofExcept (validateForgetUnavailable state req)
    let occupied ← run (.isMountpoint (mountPoint req.name))
    refuse occupied (.commandFailed ("mount point " ++ .ofList (mountPoint req.name) ++
      " is occupied; refusing to forget the filesystem"))
    let visible ← ofExcept (← run (.uuidVisible req.expectedUuid))
    refuse visible (.commandFailed ("filesystem UUID " ++ .ofList req.expectedUuid ++
      " is visible or mounted; refusing to forget it"))
    saveFsState req.name (state.erase req.name)
    run (.note "forgotten" req.name)
    run .dropCache

/-! ## Operations -/

inductive Op
  | create (req : CreateFilesystemRequest)
  | mount (fsName : Name) (forceDegraded : Bool)
  | unmount (fsName : Name)
  | updateOptions (req : UpdateFilesystemOptionsRequest)
  | destroy (req : DestroyFilesystemRequest)
  | forgetUnavailable (req : ForgetUnavailableRequest)
  | tpmBind (fsName : Name)
  | tpmUnbind (fsName : Name)
  | deleteKey (fsName : Name)

def Op.fsName : Op → Name
  | create req => req.name
  | mount name _ | unmount name | tpmBind name | tpmUnbind name | deleteKey name => name
  | updateOptions req => req.name
  | destroy req => req.name
  | forgetUnavailable req => req.name

def Op.body : Op → Service Unit
  | create req => Storage.create req
  | mount name forceDegraded => void (mountMaybeDegraded name forceDegraded)
  | unmount name => Storage.unmount name
  | updateOptions req => void (Storage.updateOptions req)
  | destroy req => Storage.destroy req
  | forgetUnavailable req => Storage.forgetUnavailable req
  | tpmBind name => Storage.tpmBind name
  | tpmUnbind name => Storage.tpmUnbind name
  | deleteKey name => Storage.deleteKey name

end Nasty.Storage
