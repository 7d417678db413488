import Nasty.Lib.Maps
import Nasty.Lib.Proc
import Nasty.Lib.Text

/-!
# Subvolumes and the commands that work on them

The names that the subvolume service accepts, the commands it calls (`bcachefs`, `losetup`, the
filesystem, its own locks), and how it reads their output: the loop devices of block images, the
list of subvolumes, and the children of one.

A name is relative to the mount point of its filesystem, and a subvolume is named by both.
-/

namespace Nasty.Subvolumes

open Proc Text

abbrev Name := List Char

inductive SubvolumeError
  | filesystemNotFound (name : Name)
  | filesystemNotMounted (name : Name)
  | alreadyExists (name : Name)
  | notFound (name : Name)
  | accessDenied
  | volsizeRequired
  | blockFilesystemRequiresBlock
  | existingIncompatible (text : String)
  | invalidName (text : String)
  | invalidVolsize (text : String)
  | childrenStuck (text : Name)
  | loopDetachFailed (device : Name) (reason : String)
  | commandFailed (text : String)
  | io (text : String)
  deriving DecidableEq

def SubvolumeError.message : SubvolumeError → String
  | filesystemNotFound name => "filesystem not found: " ++ .ofList name
  | filesystemNotMounted name => "filesystem not mounted: " ++ .ofList name
  | alreadyExists name => "subvolume already exists: " ++ .ofList name
  | notFound name => "subvolume not found: " ++ .ofList name
  | accessDenied => "access denied"
  | volsizeRequired => "volsize is required for block subvolumes"
  | blockFilesystemRequiresBlock => "block_filesystem is only valid for block subvolumes"
  | existingIncompatible text =>
    "existing subvolume is incompatible with the create request: " ++ text
  | invalidName text => "invalid name: " ++ text
  | invalidVolsize text => "invalid volsize: " ++ text
  | childrenStuck text => "child subvolume(s) must be deleted first: " ++ .ofList text
  | loopDetachFailed device reason =>
    "could not detach loop device " ++ .ofList device ++ ": " ++ reason
  | commandFailed text => "command failed: " ++ text
  | io text => "io error: " ++ text

/-! ## Names -/

def validateComponent (component : Name) : Except SubvolumeError Unit := do
  .refuse (component = []) (.invalidName "name must not contain empty path components ('//')")
  .refuse (component = "..".toList ∨ component = ".".toList)
    (.invalidName "name must not contain '.' or '..' components")
  .refuse ('@' ∈ component)
    (.invalidName "name must not contain '@' (reserved for snapshot syntax)")
  .refuse (component.any isControl) (.invalidName "name must not contain control characters")

def validateSubvolumeName (name : Name) : Except SubvolumeError Unit := do
  .refuse (name = []) (.invalidName "name is empty")
  .refuse (utf8Len name > 200) (.invalidName "name exceeds 200 chars")
  .refuse (name.head? = some '/') (.invalidName "name must not start with '/'")
  .refuse (name.head? = some '.') (.invalidName "name must not start with '.'")
  .checkAll validateComponent (split '/' name)

def vms : Name := "vms".toList

def vmDiskSubvolumeName (name : Name) : Except SubvolumeError Name := do
  validateSubvolumeName name
  .refuse ('/' ∈ name) (.invalidName "VM disk name must be one path component")
  let nested := vms ++ '/' :: name
  validateSubvolumeName nested
  return nested

def validateExistingSnapshotName (subvolume snapshot : Name) : Except SubvolumeError Unit := do
  validateSubvolumeName subvolume
  .refuse (snapshot = []) (.invalidName "snapshot name is empty")
  .refuse ('/' ∈ snapshot) (.invalidName "snapshot name must be one path component")
  .refuse (snapshot.any isControl)
    (.invalidName "snapshot name must not contain control characters")
  let sourceComponent := ((split '/' subvolume).getLast?).getD subvolume
  .refuse (utf8Len sourceComponent + 1 + utf8Len snapshot > 255)
    (.invalidName "combined subvolume@snapshot name exceeds 255 bytes")

def snapName (subvolume snapshot : Name) : Name := subvolume ++ '@' :: snapshot

def Below (p q : Name) : Prop := (p ++ ['/']) <+: q

instance (p q : Name) : Decidable (Below p q) := inferInstanceAs (Decidable (_ <+: _))

/-! ## Subvolumes -/

inductive SubvolumeType
  | filesystem
  | block
  deriving DecidableEq

inductive BlockFilesystem
  | ext3
  | ext4
  | xfs
  deriving DecidableEq

def BlockFilesystem.asStr : BlockFilesystem → Name
  | ext3 => "ext3".toList
  | ext4 => "ext4".toList
  | xfs => "xfs".toList

def SubvolumeType.debug : SubvolumeType → String
  | filesystem => "Filesystem"
  | block => "Block"

def BlockFilesystem.debug : BlockFilesystem → String
  | ext3 => "Ext3"
  | ext4 => "Ext4"
  | xfs => "Xfs"

def debugOption {α : Type} (debug : α → String) : Option α → String
  | some a => "Some(" ++ debug a ++ ")"
  | none => "None"

structure Filesystem where
  name : Name
  uuid : Name
  deriving DecidableEq

structure BlockVolumeId where
  filesystemUuid : Name
  subvolumeId : ℕ
  deriving DecidableEq

structure Subvolume where
  name : Name
  filesystem : Name
  subvolumeType : SubvolumeType
  quotaBytes : Option ℕ
  volsizeBytes : Option ℕ
  blockDevice : Option Name
  blockVolumeId : Option BlockVolumeId
  blockFilesystem : Option BlockFilesystem
  blockFilesystemUuid : Option Name
  owner : Option Name
  directIo : Bool
  created : Bool
  deriving DecidableEq

/-- The entry of `bcachefs subvolume list`, the attributes, the quota, and whether there is a
`vol.img`. -/
structure Entry where
  filesystem : Name
  name : Name
  snapshotParent : Option Name
  readOnly : Bool
  subvolid : Option ℕ
  creating : Bool
  nastyType : Option SubvolumeType
  volsizeBytes : Option ℕ
  owner : Option Name
  directIo : Bool
  blockFilesystem : Option BlockFilesystem
  blockFilesystemUuid : Option Name
  cloneSource : Option Name
  quotaBytes : Option ℕ
  image : Bool
  deriving DecidableEq

def Entry.At (fs name : Name) (e : Entry) : Prop := e.filesystem = fs ∧ e.name = name

instance (fs name : Name) : DecidablePred (Entry.At fs name) :=
  fun _ => inferInstanceAs (Decidable (_ ∧ _))

/-- The `nasty.type` attribute; without it the image decides. -/
def Entry.subvolumeType (e : Entry) : SubvolumeType :=
  e.nastyType.getD (if e.image then .block else .filesystem)

def Entry.new (fs name : Name) (subvolid : Option ℕ) : Entry where
  filesystem := fs
  name := name
  snapshotParent := none
  readOnly := false
  subvolid := subvolid
  creating := false
  nastyType := none
  volsizeBytes := none
  owner := none
  directIo := false
  blockFilesystem := none
  blockFilesystemUuid := none
  cloneSource := none
  quotaBytes := none
  image := false

/-- Not a read-only snapshot, not internal, and not being created. -/
def Entry.listed (e : Entry) : Bool :=
  ¬ (e.snapshotParent.isSome ∧ e.readOnly) ∧ e.name ≠ [] ∧ '@' ∉ e.name ∧
    ¬ ".nasty/".toList <+: e.name ∧ e.name ≠ ".nasty".toList ∧ ¬ e.creating

inductive Xattr
  | provisioningState (creating : Bool)
  | type (value : SubvolumeType)
  | volsize (bytes : ℕ)
  | compression (text : Name)
  | comment (text : Name)
  | owner (name : Name)
  | directIo
  | blockFilesystem (value : BlockFilesystem)
  | blockFilesystemUuid (uuid : Name)
  | cloneSource (source : Name)

def Xattr.set (e : Entry) : Xattr → Entry
  | provisioningState creating => { e with creating }
  | type value => { e with nastyType := some value }
  | volsize bytes => { e with volsizeBytes := some bytes }
  | compression _ | comment _ => e
  | owner name => { e with owner := some name }
  | directIo => { e with directIo := true }
  | blockFilesystem value => { e with blockFilesystem := some value }
  | blockFilesystemUuid uuid => { e with blockFilesystemUuid := some uuid }
  | cloneSource source => { e with cloneSource := some source }

def mountPoint (fs : Name) : Name := "/fs/".toList ++ fs

def subvolPath (fs name : Name) : Name := mountPoint fs ++ '/' :: name

def blockFileName : Name := "vol.img".toList

def imagePath (fs name : Name) : Name := subvolPath fs name ++ '/' :: blockFileName

/-! ## Commands -/

inductive Cmd
  /-- Wait for the lock of a destination, and give it back. -/
  | lockDestination (fs name : Name)
  | unlockDestination (fs name : Name)
  | lockRestore
  | unlockRestore
  | filesystem (fs : Name)
  | mounted
  /-- `bcachefs subvolume list --snapshots --json`, with the attributes of every entry. -/
  | listSubvolumes (fs : Name)
  /-- `bcachefs subvolume list -R`. -/
  | listRecursive (fs : Name)
  | subvolumeCreate (fs name : Name)
  | subvolumeSnapshot (fs source destination : Name) (readOnly : Bool)
  | subvolumeDelete (fs name : Name)
  /-- `losetup --list --output NAME,BACK-FILE --noheadings`. -/
  | losetupList
  | losetupAttach (image : Name) (directIo : Bool)
  | losetupDetach (device : Name)
  | pathExists (fs name : Name)
  | imageExists (fs name : Name)
  | attributes (fs name : Name)
  | pathIdentity (fs name : Name)
  | createImage (fs name : Name)
  | setXattr (fs name : Name) (value : Xattr)
  /-- The directory of a VM disk is made if it is missing, and is a real one. -/
  | namespaceDirectory (fs name : Name)
  /-- The evidence file of `/run`, initialised with what is observed. -/
  | legacyEvidence (observed : List (Name × BlockVolumeId))
  | unixTime
  /-- A step that changes nothing of the world: permissions, quotas, file options, sizes, and the
  filesystem inside an image. -/
  | other (what : String) (args : List Name)

abbrev Cmd.Answer : Cmd → Type
  | lockDestination .. | unlockDestination .. | lockRestore | unlockRestore => Unit
  | filesystem _ => Except SubvolumeError Filesystem
  | mounted => Except String (List Filesystem)
  | listSubvolumes _ => Except String (List Entry)
  | pathExists .. | imageExists .. => Bool
  | attributes .. => Entry
  | namespaceDirectory .. => Except SubvolumeError Unit
  | legacyEvidence _ => Except String (List (Name × BlockVolumeId))
  | unixTime => ℕ
  | _ => Except String Name

abbrev Service := Proc Cmd Cmd.Answer SubvolumeError

def run (c : Cmd) : Service c.Answer := perform c

abbrev orCommandFailed {α : Type} : Except String α → Service α := orFail .commandFailed

def locked {α : Type} (fs name : Name) (body : Service α) : Service α :=
  holding (.lockDestination fs name) (.unlockDestination fs name) body

/-! ## Listing -/

def deviceAndBack (line : Name) : Option (Name × Name) :=
  match splitWhitespace line with
  | device :: back :: _ => some (device, back)
  | _ => none

def losetupMap (output : Name) : Name → Option Name :=
  Function.insertAll Prod.snd Prod.fst ((lines output).filterMap deviceAndBack)

def buildLosetupMap : Service (Name → Option Name) := do
  let listing ← run .losetupList
  return match listing with
    | .ok output => losetupMap output
    | .error _ => fun _ => none

def findLoopDevice (fs name : Name) : Service (Option Name) := do
  let map ← buildLosetupMap
  let found ← run (.imageExists fs name)
  return if found then map (imagePath fs name) else none

def Entry.subvolume (e : Entry) (fs : Filesystem) (map : Name → Option Name) : Subvolume where
  name := e.name
  filesystem := e.filesystem
  subvolumeType := e.subvolumeType
  quotaBytes := match e.subvolumeType with
    | .block => none
    | .filesystem => e.quotaBytes
  volsizeBytes := e.volsizeBytes
  blockDevice := match e.subvolumeType with
    | .block => if e.image then map (imagePath e.filesystem e.name) else none
    | .filesystem => none
  blockVolumeId := match e.subvolumeType with
    | .block => e.subvolid.map (BlockVolumeId.mk fs.uuid)
    | .filesystem => none
  blockFilesystem := e.blockFilesystem
  blockFilesystemUuid := e.blockFilesystemUuid
  owner := e.owner
  directIo := e.directIo
  created := false

def filesystemOf (fs : Name) : Service Filesystem := do ofExcept (← run (.filesystem fs))

def list (fs : Name) (ownerFilter : Option Name) : Service (List Subvolume) := do
  let filesystem ← filesystemOf fs
  let entries ← orCommandFailed (← run (.listSubvolumes fs))
  let map ← buildLosetupMap
  let entries := entries.filter fun e => e.listed ∧ ∀ o ∈ ownerFilter, e.owner = some o
  return entries.map (·.subvolume filesystem map)

def requireOwner (actual required : Option Name) : Except SubvolumeError Unit :=
  .refuse (required.isSome ∧ actual ≠ required) .accessDenied

def get (fs name : Name) (ownerFilter : Option Name) : Service Subvolume := do
  let subvolumes ← list fs none
  let subvolume ← ofExcept ((subvolumes.find? (·.name = name)).elim (.error (.notFound name)) .ok)
  ofExcept (requireOwner subvolume.owner ownerFilter)
  return subvolume

/-- The first word of every line that starts with the parent and a slash. -/
def childrenOf (output parent : Name) : List Name :=
  ((lines output).map fun line => (splitWhitespace line).headD []).filter fun path =>
    Below parent path ∧ path ≠ parent

def findChildSubvolumes (fs parent : Name) : Service (List Name) := do
  let output ← orCommandFailed (← run (.listRecursive fs))
  return (childrenOf output parent).insertionSort (· ≤ ·)

end Nasty.Subvolumes
