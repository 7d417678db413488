import Nasty.Cascade.Vms
import Nasty.Sharing.Luns
import Nasty.Sharing.Nvmeof

/-!
# What depends on a filesystem or a subvolume

The services that can refer to a path are asked for their entries, and each entry is attributed by
the path or the loop device it names. `findDependents` does it for one filesystem,
`findAllSubvolumeDependents` for every subvolume at once.
-/

namespace Nasty.Cascade

open Subvolumes (Subvolume BlockVolumeId subvolPath)
open Sharing (IscsiTarget NvmeofSubsystem)

/-! ## Dependents of a filesystem -/

structure AppsConfig where
  storagePath : Option Name
  appdataPath : Option Name

structure BackupSources where
  name : Name
  sources : List Name

structure SharedPath where
  label : Name
  path : Name

/-- What the services answer to the listings of one `find_dependents`. -/
structure Stores where
  mounted : Option Bool
  subvolumes : Except String (List Subvolume)
  appsConfig : Except String AppsConfig
  apps : Except String (List Name)
  backups : Except String (List BackupSources)
  nfs : Except String (List SharedPath)
  smb : Except String (List SharedPath)
  iscsi : Except String (List IscsiTarget)
  nvmeof : Except String (List NvmeofSubsystem)

structure FsDependents where
  filesystem : Name
  mounted : Bool
  subvolumes : List Name
  appsStorage : Bool
  apps : List Name
  vms : List Name
  backupJobs : List Name
  nfsShares : List Name
  smbShares : List Name
  iscsiTargets : List Name
  nvmeofSubsystems : List Name
  stateErrors : List String

def pathBelongsToFs (path fsName : Name) : Bool :=
  ("/fs/".toList ++ fsName ++ ['/']).isPrefixOf path || path = "/fs/".toList ++ fsName

def entries {α : Type} : Except String (List α) → List α
  | .ok l => l
  | .error _ => []

def loadError {α : Type} (what : String) : Except String α → List String
  | .ok _ => []
  | .error e => [what ++ " failed to load: " ++ e]

def blockDevs (stores : Stores) : List Name :=
  (entries stores.subvolumes).filterMap (·.blockDevice)

def blockIds (stores : Stores) : List BlockVolumeId :=
  (entries stores.subvolumes).filterMap (·.blockVolumeId)

def touchesFs (stores : Stores) (fsName : Name) (vm : Vm) : Bool :=
  vm.disks.any fun disk => pathBelongsToFs disk.path fsName ||
    disk.source.any (pathBelongsToFs · fsName) || disk.path ∈ blockDevs stores

def appsOnFs (stores : Stores) (fsName : Name) : Bool :=
  match stores.appsConfig with
  | .ok config => [config.storagePath, config.appdataPath].any (·.any (pathBelongsToFs · fsName))
  | .error _ => false

/-- The error of the listing counts only if the apps are on the filesystem. -/
def appErrors (stores : Stores) (fsName : Name) : List String :=
  loadError "app config" stores.appsConfig ++
    if appsOnFs stores fsName then loadError "app state" stores.apps else []

def iscsiErrors (stores : Stores) : List String :=
  loadError "iSCSI state" stores.iscsi ++
    ((entries stores.iscsi).filter fun t => t.luns.any fun l =>
      l.backingVolumeUnresolved && l.backingVolume.isNone).map fun t =>
        "iSCSI target '" ++ .ofList t.iqn ++ "' has unresolved legacy block-volume ownership"

def nvmeofErrors (stores : Stores) : List String :=
  loadError "NVMe-oF state" stores.nvmeof ++
    ((entries stores.nvmeof).filter fun s => s.namespaces.any fun n =>
      n.backingVolumeUnresolved && n.backingVolume.isNone).map fun s =>
        "NVMe-oF subsystem '" ++ .ofList s.nqn ++ "' has unresolved legacy block-volume ownership"

/-- A LUN or a namespace on the filesystem, by its path, its loop device or its identity. -/
def exportTouchesFs (stores : Stores) (fsName : Name) (uuid : Option Name) (path : Name)
    (backing : Option BlockVolumeId) : Bool :=
  pathBelongsToFs path fsName || path ∈ blockDevs stores ||
    backing.any fun identity => identity ∈ blockIds stores || uuid = some identity.filesystemUuid

/-- `VmService::list` leaves out what it cannot read and never fails. -/
def findDependentsWithUuid (stores : Stores) (vms : List Vm) (fsName : Name) (uuid : Option Name) :
    FsDependents where
  filesystem := fsName
  mounted := stores.mounted.getD false
  subvolumes := (entries stores.subvolumes).map (·.name)
  appsStorage := appsOnFs stores fsName
  apps := if appsOnFs stores fsName then entries stores.apps else []
  vms := (vms.filter (touchesFs stores fsName)).map (·.name)
  backupJobs := ((entries stores.backups).filter
    (·.sources.any (pathBelongsToFs · fsName))).map (·.name)
  nfsShares := ((entries stores.nfs).filter (pathBelongsToFs ·.path fsName)).map (·.label)
  smbShares := ((entries stores.smb).filter (pathBelongsToFs ·.path fsName)).map (·.label)
  iscsiTargets := ((entries stores.iscsi).filter fun t => t.luns.any fun l =>
    exportTouchesFs stores fsName uuid l.backstorePath l.backingVolume).map (·.iqn)
  nvmeofSubsystems := ((entries stores.nvmeof).filter fun s => s.namespaces.any fun n =>
    exportTouchesFs stores fsName uuid n.devicePath n.backingVolume).map (·.nqn)
  stateErrors := loadError "subvolume state" stores.subvolumes ++ appErrors stores fsName ++
    loadError "backup state" stores.backups ++ loadError "NFS state" stores.nfs ++
    loadError "SMB state" stores.smb ++ iscsiErrors stores ++ nvmeofErrors stores

def findDependents (stores : Stores) (vms : List Vm) (fsName : Name) : FsDependents :=
  findDependentsWithUuid stores vms fsName none

/-! ## Dependents of the subvolumes -/

structure SubvolumeDependents where
  filesystem : Name
  name : Name
  path : Name
  appsStorage : List String
  apps : List Name
  vms : List Name
  backupJobs : List Name
  nfsShares : List Name
  smbShares : List Name
  iscsiTargets : List Name
  nvmeofSubsystems : List Name
  stateErrors : List String

def SubvolumeDependents.default : SubvolumeDependents :=
  ⟨[], [], [], [], [], [], [], [], [], [], [], []⟩

def pathInSubvol (path subvolPath : Name) : Bool :=
  path = subvolPath || (subvolPath ++ ['/']).isPrefixOf path

def pathOf (sv : Subvolume) : Name := subvolPath sv.filesystem sv.name

/-- The longest first, so that a path is attributed to the innermost subvolume. -/
def pathsDesc (subvols : List Subvolume) : List Name :=
  (subvols.map pathOf).insertionSort fun p q => Text.utf8Len q ≤ Text.utf8Len p

def owningSubvol (subvols : List Subvolume) (target : Name) : Option Name :=
  (pathsDesc subvols).find? (pathInSubvol target)

/-- Of several subvolumes with one device the index keeps the last. -/
def blockOwner (subvols : List Subvolume) (device : Name) : Option Name :=
  (subvols.reverse.find? (·.blockDevice = some device)).map pathOf

def identityOwner (subvols : List Subvolume) (identity : BlockVolumeId) : Option Name :=
  (subvols.reverse.find? (·.blockVolumeId = some identity)).map pathOf

def vmOwners (subvols : List Subvolume) (vm : Vm) : List Name :=
  vm.disks.flatMap fun disk =>
    (owningSubvol subvols disk.path).toList ++ (blockOwner subvols disk.path).toList

def exportOwners (subvols : List Subvolume) (path : Name) (backing : Option BlockVolumeId) :
    List Name :=
  (owningSubvol subvols path).toList ++ (blockOwner subvols path).toList ++
    (backing.bind (identityOwner subvols)).toList

/-- `AppsService::status` takes a configuration it cannot read for an empty one. -/
def storagePath (stores : Stores) : Option Name :=
  match stores.appsConfig with
  | .ok config => config.storagePath
  | .error _ => none

def appdataPath (stores : Stores) : Option Name :=
  match stores.appsConfig with
  | .ok config => config.appdataPath
  | .error _ => none

def configError : Except String AppsConfig → List String
  | .ok _ => []
  | .error e => ["Apps configuration: " ++ e]

def dependentsOf (stores : Stores) (vms : List Vm) (sv : Subvolume) : SubvolumeDependents :=
  let subvols := entries stores.subvolumes
  let owns (path : Name) : Bool := owningSubvol subvols path = some (pathOf sv)
  { filesystem := sv.filesystem
    name := sv.name
    path := pathOf sv
    appsStorage := (if (storagePath stores).any owns then ["Docker storage"] else []) ++
      if (appdataPath stores).any owns then ["application data storage"] else []
    apps := if (storagePath stores).any owns then entries stores.apps else []
    vms := (vms.filter fun vm => pathOf sv ∈ vmOwners subvols vm).map (·.name)
    backupJobs := ((entries stores.backups).filter (·.sources.any owns)).map (·.name)
    nfsShares := ((entries stores.nfs).filter (owns ·.path)).map (·.label)
    smbShares := ((entries stores.smb).filter (owns ·.path)).map (·.label)
    iscsiTargets := ((entries stores.iscsi).filter fun t => t.luns.any fun l =>
      pathOf sv ∈ exportOwners subvols l.backstorePath l.backingVolume).map (·.iqn)
    nvmeofSubsystems := ((entries stores.nvmeof).filter fun s => s.namespaces.any fun n =>
      pathOf sv ∈ exportOwners subvols n.devicePath n.backingVolume).map (·.nqn)
    stateErrors := configError stores.appsConfig ++ loadError "iSCSI state" stores.iscsi ++
      loadError "NVMe-oF state" stores.nvmeof }

def ownerVisible (owner ownerFilter : Option Name) : Bool :=
  match ownerFilter with
  | some filter => owner = some filter
  | none => true

/-- One entry for each path, with the names of the last subvolume that has it. -/
def findAllSubvolumeDependents (stores : Stores) (vms : List Vm) (ownerFilter : Option Name) :
    List SubvolumeDependents :=
  let subvols := entries stores.subvolumes
  let visible := (subvols.filter (ownerVisible ·.owner ownerFilter)).map pathOf
  visible.keepFirst.filterMap fun path =>
    (subvols.reverse.find? (pathOf · = path)).map (dependentsOf stores vms)

end Nasty.Cascade
