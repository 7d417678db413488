import Nasty.Backup.Profile

/-!
# The profile state file

Profiles live in memory and in one JSON file. A save first reloads the file and refuses to replace
what it cannot read, then writes a temporary file and renames it over the state file. The rename
is the commit point: memory follows it, and a failure after it is reported though the new list
is in force. `persisted` says this once for every way a save can end.
-/

namespace Nasty.Backup.Service

/-- `serde_json` on the profile list. -/
structure Json where
  encode : List BackupProfile → Except String String
  decode : String → Except String (List BackupProfile)
  decode_encode : ∀ {ps text}, encode ps = .ok text → decode text = .ok ps

structure Disk where
  content : Option ByteArray
  temp : Bool

structure Faults where
  read : Option String := none
  create : Option String := none
  write : Option String := none
  sync : Option String := none
  rename : Option String := none
  cleanup : Option String := none
  drop : Option String := none
  syncDirectory : Option String := none

structure World where
  profiles : List BackupProfile
  stateLoadError : Option String
  disk : Disk

def stateDirectory : String := "/var/lib/nasty"
def statePath : String := "/var/lib/nasty/backups.json"
def stateTempPath : String := "/var/lib/nasty/.backups.json.tmp"

inductive StatePersistFailure
  | beforeRename (error : BackupError)
  | afterRename (directory error : String)

def StatePersistFailure.committed : StatePersistFailure → Bool
  | afterRename .. => true
  | beforeRename _ => false

def StatePersistFailure.toBackupError : StatePersistFailure → BackupError
  | beforeRename error => error
  | afterRename directory error =>
    .failed (s!"backup profile state update was applied, but parent directory {directory} " ++
      "could not be synced; durability is not guaranteed, check storage health: " ++ error)

def persistenceCommitted : Except StatePersistFailure Unit → Bool
  | .ok () => true
  | .error error => error.committed

variable (json : Json)

def loadProfilesFrom (read : Option String) (disk : Disk) :
    Except BackupError (List BackupProfile) :=
  match read, disk.content with
  | some error, _ => .error (.io error)
  | none, none => .ok []
  | none, some bytes =>
    match String.fromUTF8? bytes with
    | none => .error (.io "stream did not contain valid UTF-8")
    | some content =>
      (json.decode content).mapError fun error => .failed s!"parse {statePath}: {error}"

def cleanupStaleStateTemp (remove : Option String) (disk : Disk) : Disk :=
  { disk with temp := disk.temp && remove.isSome }

def World.new (faults : Faults) (disk : Disk) : World :=
  let disk := cleanupStaleStateTemp faults.cleanup disk
  match loadProfilesFrom json faults.read disk with
  | .ok profiles => { profiles, stateLoadError := none, disk }
  | .error error => { profiles := [], stateLoadError := some error.message, disk }

def stateWriteError (operation path error : String) : BackupError :=
  .failed s!"{operation} {path}: {error}"

def createTemp (faults : Faults) (disk : Disk) : Except BackupError Unit :=
  let refused := if disk.temp then some "File exists (os error 17)" else faults.create
  match refused with
  | some error => .error (stateWriteError "create temporary backup state" stateTempPath error)
  | none => .ok ()

/-- The closure `commit`: write, sync and rename the temporary file. -/
def commitTemp (faults : Faults) : Except BackupError Unit :=
  match faults.write, faults.sync, faults.rename with
  | some error, _, _ =>
    .error (stateWriteError "write temporary backup state" stateTempPath error)
  | none, some error, _ =>
    .error (stateWriteError "sync temporary backup state" stateTempPath error)
  | none, none, some error => .error (stateWriteError "replace backup state" statePath error)
  | none, none, none => .ok ()

/-- The temporary file is removed when the commit failed, and once more when it is dropped if that
failed too. -/
def discardTemp (faults : Faults) (error : BackupError) (disk : Disk) :
    Except StatePersistFailure Unit × Disk :=
  match faults.cleanup with
  | none => (.error (.beforeRename error), { disk with temp := false })
  | some cleanupError =>
    (.error (.beforeRename (.failed
        s!"{error.message}; remove temporary backup state {stateTempPath}: {cleanupError}")),
      { disk with temp := faults.drop.isSome })

def saveProfilesTo (faults : Faults) (profiles : List BackupProfile) (disk : Disk) :
    Except StatePersistFailure Unit × Disk :=
  match loadProfilesFrom json faults.read disk with
  | .error error => (.error (.beforeRename error), disk)
  | .ok _ =>
    match json.encode profiles with
    | .error error =>
      (.error (.beforeRename (.failed s!"serialize backup profiles: {error}")), disk)
    | .ok text =>
      match createTemp faults disk with
      | .error error => (.error (.beforeRename error), disk)
      | .ok () =>
        match commitTemp faults with
        | .error error => discardTemp faults error disk
        | .ok () =>
          (match faults.syncDirectory with
            | some error => .error (.afterRename stateDirectory error)
            | none => .ok (),
            { content := some text.toUTF8, temp := false })

def ensureStateHealthy (w : World) : Except BackupError Unit :=
  match w.stateLoadError with
  | some error =>
    .error (.failed (s!"backup profile state failed to load during engine startup: {error}; " ++
      "repair the state file and restart the engine"))
  | none => .ok ()

def publishProfiles (profiles next : List BackupProfile)
    (persistence : Except StatePersistFailure Unit) : List BackupProfile :=
  if persistenceCommitted persistence then next else profiles

def World.persistProfilesChecked (faults : Faults) (next : List BackupProfile) (w : World) :
    Except StatePersistFailure Unit × World :=
  match ensureStateHealthy w with
  | .error error => (.error (.beforeRename error), w)
  | .ok () =>
    let (persistence, disk) := saveProfilesTo json faults next w.disk
    (persistence, { w with profiles := publishProfiles w.profiles next persistence, disk })

/-! ## What a save does -/

variable {json} {faults : Faults} {disk : Disk} {w w' : World} {next : List BackupProfile}

inductive Persisted (json : Json) (faults : Faults) (w : World) (next : List BackupProfile) :
    Except StatePersistFailure Unit → World → Prop
  | kept {failure w'} (huncommitted : StatePersistFailure.committed failure = false)
      (hprofiles : w'.profiles = w.profiles) (herror : w'.stateLoadError = w.stateLoadError)
      (hcontent : w'.disk.content = w.disk.content) :
      Persisted json faults w next (.error failure) w'
  | replaced {persistence w' stored text} (hcommitted : persistenceCommitted persistence)
      (hhealthy : w.stateLoadError = none)
      (hstored : loadProfilesFrom json faults.read w.disk = .ok stored)
      (htext : json.encode next = .ok text) (hprofiles : w'.profiles = next)
      (herror : w'.stateLoadError = none) (hcontent : w'.disk.content = some text.toUTF8) :
      Persisted json faults w next persistence w'

theorem discardTemp_eq (faults : Faults) (error : BackupError) (disk : Disk) :
    ∃ error' temp, discardTemp faults error disk =
      (.error (.beforeRename error'), { disk with temp }) := by
  unfold discardTemp
  split <;> exact ⟨_, _, rfl⟩

theorem saveProfilesTo_cases (json : Json) (faults : Faults) (next : List BackupProfile)
    (disk : Disk) :
    (∃ error disk', saveProfilesTo json faults next disk = (.error (.beforeRename error), disk') ∧
      disk'.content = disk.content) ∨
    ∃ persistence disk' stored text, saveProfilesTo json faults next disk = (persistence, disk') ∧
      persistenceCommitted persistence ∧ loadProfilesFrom json faults.read disk = .ok stored ∧
      json.encode next = .ok text ∧ disk'.content = some text.toUTF8 := by
  unfold saveProfilesTo
  rcases hload : loadProfilesFrom json faults.read disk with error | stored
  · exact .inl ⟨error, disk, rfl, rfl⟩
  rcases htext : json.encode next with error | text
  · exact .inl ⟨_, disk, rfl, rfl⟩
  rcases createTemp faults disk with error | ⟨⟩
  · exact .inl ⟨error, disk, rfl, rfl⟩
  rcases commitTemp faults with error | ⟨⟩
  · obtain ⟨error', temp, h⟩ := discardTemp_eq faults error disk
    exact .inl ⟨error', _, h, rfl⟩
  · refine .inr ⟨_, _, stored, text, rfl, ?_, rfl, rfl, rfl⟩
    cases faults.syncDirectory <;> rfl

theorem persisted (json : Json) (faults : Faults) (next : List BackupProfile) (w : World) :
    Persisted json faults w next (w.persistProfilesChecked json faults next).1
      (w.persistProfilesChecked json faults next).2 := by
  unfold World.persistProfilesChecked ensureStateHealthy
  rcases hhealthy : w.stateLoadError with _ | error
  · obtain ⟨error, disk', hsave, hcontent⟩ |
      ⟨persistence, disk', stored, text, hsave, hcommitted, hstored, htext, hcontent⟩ :=
      saveProfilesTo_cases json faults next w.disk
    · simp only [hsave]
      exact .kept rfl rfl hhealthy.symm hcontent
    · simp only [hsave]
      exact .replaced hcommitted hhealthy hstored htext (if_pos hcommitted) rfl hcontent
  · exact .kept rfl rfl rfl rfl

theorem fromUTF8?_toUTF8 (s : String) : String.fromUTF8? s.toUTF8 = some s :=
  dif_pos s.isValidUTF8

theorem load_encoded {text : String} (htext : json.encode next = .ok text)
    (hcontent : disk.content = some text.toUTF8) : loadProfilesFrom json none disk = .ok next := by
  unfold loadProfilesFrom
  simp only [hcontent, fromUTF8?_toUTF8, json.decode_encode htext]
  rfl

variable {read : Option String}

theorem loadProfilesFrom_congr {disk' : Disk} (h : disk'.content = disk.content) :
    loadProfilesFrom json read disk' = loadProfilesFrom json read disk := by
  unfold loadProfilesFrom
  rw [h]

theorem loadProfilesFrom_readable {ps : List BackupProfile}
    (h : loadProfilesFrom json read disk = .ok ps) :
    read = none ∧ loadProfilesFrom json none disk = .ok ps := by
  cases read with
  | none => exact ⟨rfl, h⟩
  | some error => nomatch h

theorem World.new_spec (json : Json) (faults : Faults) (disk : Disk) :
    (World.new json faults disk).disk.content = disk.content ∧
      (loadProfilesFrom json none disk = .ok (World.new json faults disk).profiles ∧
          (World.new json faults disk).stateLoadError = none ∨
        (World.new json faults disk).profiles = [] ∧
          (World.new json faults disk).stateLoadError ≠ none) := by
  unfold World.new
  dsimp only
  rcases hload : loadProfilesFrom json faults.read (cleanupStaleStateTemp faults.cleanup disk)
    with error | ps
  · exact ⟨rfl, .inr ⟨rfl, nofun⟩⟩
  · exact ⟨rfl, .inl ⟨(loadProfilesFrom_readable hload).2, rfl⟩⟩

end Nasty.Backup.Service
