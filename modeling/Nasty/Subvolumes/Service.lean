import Nasty.Subvolumes.Commands

/-!
# The subvolume service

The operations of `SubvolumeService` as processes: each calls its commands one at a time, under
the lock of the names it works on.
-/

namespace Nasty.Subvolumes

open Proc

/-! ## Create -/

structure CreateSubvolumeRequest where
  filesystem : Name
  name : Name
  subvolumeType : SubvolumeType
  volsizeBytes : Option ℕ
  compression : Option Name
  comments : Option Name
  directIo : Option Bool
  foregroundTarget : Option Name
  backgroundTarget : Option Name
  promoteTarget : Option Name
  metadataTarget : Option Name
  dataReplicas : Option ℕ
  blockFilesystem : Option BlockFilesystem

def maxVolsizeBytes : ℕ := 281474976710656

def validateVolsizeBytes (bytes : ℕ) : Except SubvolumeError Unit := do
  .refuse (bytes = 0) (.invalidVolsize "volsize must be greater than zero")
  .refuse (bytes > maxVolsizeBytes) (.invalidVolsize ("volsize " ++ toString bytes ++
    " exceeds maximum " ++ toString maxVolsizeBytes ++ " (256 TiB)"))

def quotaBytesFromRequest (bytes : ℕ) : ℕ := (bytes + 1023) / 1024 * 1024

def CreateSubvolumeRequest.fileOptions (req : CreateSubvolumeRequest) : List Name :=
  let option (flag : String) (value : Option Name) : List Name :=
    (value.map fun v => flag.toList ++ '=' :: v).toList
  option "--compression" req.compression ++
    option "--foreground_target" req.foregroundTarget ++
    option "--background_target" req.backgroundTarget ++
    option "--promote_target" req.promoteTarget ++
    option "--metadata_target" req.metadataTarget ++
    option "--data_replicas" (req.dataReplicas.map fun n => Nat.toDigits 10 n)

def validateCreate (req : CreateSubvolumeRequest) (allowNestedBlock : Bool) :
    Except SubvolumeError Unit := do
  validateSubvolumeName req.name
  .refuse (req.subvolumeType = .block ∧ req.volsizeBytes = none) .volsizeRequired
  .refuse (req.subvolumeType = .block ∧ '/' ∈ req.name ∧ ¬ allowNestedBlock)
    (.invalidName "nested block subvolumes are not supported")
  .refuse (req.subvolumeType ≠ .block ∧ req.blockFilesystem.isSome) .blockFilesystemRequiresBlock
  .checkAll validateVolsizeBytes req.volsizeBytes.toList

def effectiveVolsizeBytes (req : CreateSubvolumeRequest) : Option ℕ :=
  match req.subvolumeType with
  | .filesystem => req.volsizeBytes.map quotaBytesFromRequest
  | .block => req.volsizeBytes

/-- An existing subvolume answers a create request only if it is what the request asks for. -/
def checkExisting (req : CreateSubvolumeRequest) (existing : Subvolume) :
    Except SubvolumeError Unit := do
  .refuse (existing.subvolumeType ≠ req.subvolumeType)
    (.existingIncompatible ("requested " ++ req.subvolumeType.debug ++ ", existing " ++
      existing.subvolumeType.debug))
  .checkAll (fun expected => .refuse (existing.volsizeBytes ≠ some expected)
    (.existingIncompatible ("requested capacity " ++ toString expected ++
      ", existing capacity " ++ debugOption toString existing.volsizeBytes)))
    (effectiveVolsizeBytes req).toList
  .checkAll (fun expected => .refuse (existing.blockFilesystem ≠ some expected ∨
      existing.blockFilesystemUuid.getD [] = [])
    (.existingIncompatible ("requested initialized " ++ .ofList expected.asStr ++
      ", existing type=" ++ debugOption BlockFilesystem.debug existing.blockFilesystem ++
      ", uuid_present=" ++ if existing.blockFilesystemUuid.getD [] = [] then "false" else "true")))
    req.blockFilesystem.toList

/-- The device of a failed create is detached; the subvolume is left to the operator. -/
def quarantineFailedCreate : Option Name → Service Unit
  | some device => do
    let _ ← run (.losetupDetach device)
  | none => pure ()

/-- The value of a step of `create`; a failed step of a block subvolume quarantines it. -/
def orQuarantine {ε α : Type} (type : SubvolumeType) (device : Option Name)
    (error : ε → SubvolumeError) : Except ε α → Service α
  | .ok a => pure a
  | .error e => do
    onlyIf (type = .block) (quarantineFailedCreate device)
    fail (error e)

def initializeBlockFilesystem (device : Name) (filesystem : BlockFilesystem) : Service Name := do
  let _ ← orCommandFailed (← run (.other "mkfs" [filesystem.asStr, device]))
  let _ ← orCommandFailed (← run (.other "blockdev --flushbufs" [device]))
  let detected ← orCommandFailed (← run (.other "blkid -p -s TYPE -o value" [device]))
  refuse (Text.trim detected ≠ filesystem.asStr)
    (.commandFailed ("filesystem verification failed for " ++ .ofList device ++
      ": expected " ++ .ofList filesystem.asStr ++ ", detected " ++
      reprStr (String.ofList (Text.trim detected))))
  let uuid ← orCommandFailed (← run (.other "blkid -p -s UUID -o value" [device]))
  refuse (Text.trim uuid = [])
    (.commandFailed ("filesystem verification returned no UUID for " ++ .ofList device))
  return Text.trim uuid

/-- The image of a new block subvolume and its loop device, with the UUID of the filesystem made
inside it. -/
def provisionBlock (req : CreateSubvolumeRequest) (volsize : ℕ) :
    Service (Option Name × Option Name) := do
  let image := imagePath req.filesystem req.name
  let _ ← orQuarantine .block none
    (fun e => .commandFailed ("create block image " ++ .ofList image ++ ": " ++ e))
    (← run (.createImage req.filesystem req.name))
  let _ ← orQuarantine .block none
    (fun e => .commandFailed ("resize block image " ++ .ofList image ++ ": " ++ e))
    (← run (.other "set_len" [image, Nat.toDigits 10 volsize]))
  let _ ← run (.other "set-file-option --nocow" [image])
  let output ← orQuarantine .block none .commandFailed
    (← run (.losetupAttach image (req.directIo.getD false)))
  let device := Text.trim output
  orQuarantine .block none id
    (.refuse (device = []) (.commandFailed "losetup returned an empty loop device path"))
  match req.blockFilesystem with
  | none => return (some device, none)
  | some filesystem =>
    let uuid ← orQuarantine .block (some device) id
      (← attempt (initializeBlockFilesystem device filesystem))
    return (some device, some uuid)

def provision (req : CreateSubvolumeRequest) : Service (Option Name × Option Name) :=
  match req.subvolumeType with
  | .filesystem => pure (none, none)
  | .block => provisionBlock req ((effectiveVolsizeBytes req).getD 0)

def setXattr (fs name : Name) (value : Xattr) (error : String) : Service Unit := do
  let _ ← orFail (fun e => .commandFailed (error ++ ": " ++ e)) (← run (.setXattr fs name value))

/-- The attributes that `write_meta_xattrs` sets, in its order, with their names in its errors. -/
def metaXattrs (type : SubvolumeType) (volsizeBytes : Option ℕ) (compression comments : Option Name)
    (owner : Option Name) (directIo : Bool) (blockFilesystem : Option BlockFilesystem)
    (blockFilesystemUuid : Option Name) : List (Xattr × String) :=
  [(.type type, "type")] ++
    (volsizeBytes.map fun v => (Xattr.volsize v, "volsize")).toList ++
    (compression.map fun c => (Xattr.compression c, "compression")).toList ++
    (comments.map fun c => (Xattr.comment c, "comment")).toList ++
    (owner.map fun o => (Xattr.owner o, "owner")).toList ++
    (if directIo then [(.directIo, "direct_io")] else []) ++
    (blockFilesystem.map fun f => (Xattr.blockFilesystem f, "block filesystem")).toList ++
    (blockFilesystemUuid.map fun u => (Xattr.blockFilesystemUuid u, "block filesystem UUID")).toList

def writeMetaXattrs (fs name : Name) (xattrs : List (Xattr × String)) : Service Unit :=
  each xattrs fun x => setXattr fs name x.1 ("setxattr " ++ x.2)

def createExisting (req : CreateSubvolumeRequest) (owner : Option Name) : Service Subvolume := do
  let attributes ← run (.attributes req.filesystem req.name)
  refuse attributes.creating
    (.existingIncompatible "a previous create was interrupted before provisioning completed")
  let existing ← get req.filesystem req.name owner
  ofExcept (checkExisting req existing)
  onlyIf (existing.subvolumeType = .filesystem) do
    let _ ← orFail (fun e => .commandFailed ("chmod 0777 " ++
        .ofList (subvolPath req.filesystem req.name) ++ " during idempotent create: " ++ e))
      (← run (.other "chmod 0777" [subvolPath req.filesystem req.name]))
  return existing

def createNew (req : CreateSubvolumeRequest) (owner : Option Name) : Service Subvolume := do
  let fs := req.filesystem
  let path := subvolPath fs req.name
  let _ ← orFail .io (← run (.other "create_dir_all" [path]))
  let _ ← orCommandFailed (← run (.subvolumeCreate fs req.name))
  let _ ← orQuarantine req.subvolumeType none
    (fun e => .commandFailed ("chmod 0700 " ++ .ofList path ++ ": " ++ e))
    (← run (.other "chmod 0700" [path]))
  let _ ← orQuarantine req.subvolumeType none
    (fun e => .commandFailed ("set provisioning state on " ++ .ofList path ++ ": " ++ e))
    (← run (.setXattr fs req.name (.provisioningState true)))
  each req.fileOptions fun option => do
    let _ ← run (.other "set-file-option" [option, path])
  onlyIf (req.subvolumeType = .filesystem) do
    let _ ← run (.other "set_project_quota"
      [path, Nat.toDigits 10 ((effectiveVolsizeBytes req).getD 0)])
  let (device, uuid) ← provision req
  orQuarantine req.subvolumeType device id (← attempt (writeMetaXattrs fs req.name (metaXattrs
    req.subvolumeType (effectiveVolsizeBytes req) req.compression req.comments owner
    (req.directIo.getD false) req.blockFilesystem uuid)))
  let _ ← orQuarantine req.subvolumeType device
    (fun e => .commandFailed ("mark provisioning complete on " ++ .ofList path ++ ": " ++ e))
    (← run (.setXattr fs req.name (.provisioningState false)))
  onlyIf (req.subvolumeType = .filesystem) do
    let _ ← run (.other "chmod 0777" [path])
  let subvolume ← get fs req.name none
  return { subvolume with created := true }

def createInner (req : CreateSubvolumeRequest) (owner : Option Name) (allowNestedBlock : Bool) :
    Service Subvolume := do
  ofExcept (validateCreate req allowNestedBlock)
  locked req.filesystem req.name do
    let _ ← filesystemOf req.filesystem
    onlyIf allowNestedBlock do
      ofExcept (← run (.namespaceDirectory req.filesystem req.name))
    let present ← run (.pathExists req.filesystem req.name)
    if present then createExisting req owner else createNew req owner

def create (req : CreateSubvolumeRequest) (owner : Option Name) : Service Subvolume :=
  createInner req owner false

def orNotFound {α : Type} : Except SubvolumeError α → Except SubvolumeError (Option α)
  | .ok a => .ok (some a)
  | .error (.notFound _) => .ok none
  | .error e => .error e

def createVmDisk (fs name : Name) (volsizeBytes : ℕ) (owner : Option Name) :
    Service Subvolume := do
  let name ← ofExcept (vmDiskSubvolumeName name)
  locked fs vms do
    let _ ← ofExcept (orNotFound (← attempt (get fs vms owner)))
    createInner
      { filesystem := fs, name, subvolumeType := .block, volsizeBytes := some volsizeBytes,
        compression := none, comments := some "Virtual machine disk".toList, directIo := none,
        foregroundTarget := none, backgroundTarget := none, promoteTarget := none,
        metadataTarget := none, dataReplicas := none, blockFilesystem := none }
      owner true

/-! ## Delete, attach and detach -/

def isAlreadyDetached (error : String) : Bool :=
  let lower := error.toList.map Char.toLower
  "no such device".toList <:+: lower ∨ "not in use".toList <:+: lower

def orAlreadyDetached (device : Name) : Except String Name → Except SubvolumeError Unit
  | .ok _ => .ok ()
  | .error e => if isAlreadyDetached e then .ok () else .error (.loopDetachFailed device e)

def detachForDelete (subvolume : Subvolume) : Service Unit :=
  match subvolume.subvolumeType, subvolume.blockDevice with
  | .block, some device => do ofExcept (orAlreadyDetached device (← run (.losetupDetach device)))
  | _, _ => pure ()

def delete (fs name : Name) (ownerFilter : Option Name) : Service Unit :=
  locked fs name do
    let subvolume ← get fs name ownerFilter
    let _ ← filesystemOf fs
    let children ← findChildSubvolumes fs name
    refuse (children ≠ []) (.childrenStuck (Text.join "; ".toList
      (children.map (· ++ " (delete separately)".toList))))
    detachForDelete subvolume
    let _ ← orCommandFailed (← run (.subvolumeDelete fs name))
    onlyIf (subvolume.subvolumeType = .filesystem) do
      let _ ← run (.other "unregister_project" [fs, name])

def attach (fs name : Name) (ownerFilter : Option Name) : Service Subvolume :=
  locked fs name do
    let subvolume ← get fs name ownerFilter
    refuse (subvolume.subvolumeType ≠ .block)
      (.commandFailed "only block subvolumes can be attached")
    match subvolume.blockDevice with
    | some _ => return subvolume
    | none =>
      let _ ← orCommandFailed (← run (.losetupAttach (imagePath fs name) subvolume.directIo))
      get fs name ownerFilter

def detach (fs name : Name) (ownerFilter : Option Name) : Service Subvolume :=
  locked fs name do
    let subvolume ← get fs name ownerFilter
    match subvolume.blockDevice with
    | some device =>
      let _ ← orCommandFailed (← run (.losetupDetach device))
      get fs name ownerFilter
    | none => get fs name ownerFilter

/-! ## Snapshots, clones and rollback -/

def authorizeSnapshotProvenance (snapshotOwner parentOwner ownerFilter : Option Name)
    (allowAdminOverride : Bool) : Except SubvolumeError Unit :=
  if allowAdminOverride then .ok ()
  else do
    requireOwner parentOwner ownerFilter
    requireOwner snapshotOwner ownerFilter
    .refuse (snapshotOwner ≠ parentOwner) .accessDenied

def authorizeOrphanSnapshot (snapshotOwner ownerFilter : Option Name)
    (allowAdminOverride : Bool) : Except SubvolumeError Unit :=
  if allowAdminOverride then .ok ()
  else do
    .refuse (ownerFilter = none) .accessDenied
    requireOwner snapshotOwner ownerFilter

/-- Pending writes of a block device go to its image before a copy is made. -/
def flush (subvolume : Subvolume) : Service Unit :=
  match subvolume.subvolumeType, subvolume.blockDevice with
  | .block, some device => do
    let _ ← run (.other "blockdev --flushbufs" [device])
  | _, _ => pure ()

def createSnapshotLocked (fs subvolume name : Name) (ownerFilter : Option Name) :
    Service Unit := do
  let _ ← get fs subvolume ownerFilter
  let _ ← filesystemOf fs
  refuse (¬ (← run (.pathExists fs subvolume))) (.notFound subvolume)
  refuse (← run (.pathExists fs (snapName subvolume name))) (.alreadyExists name)
  flush (← get fs subvolume ownerFilter)
  let _ ← orCommandFailed (← run (.subvolumeSnapshot fs subvolume (snapName subvolume name) true))
  let _ ← run (.listSubvolumes fs)

def attachCopy (fs name : Name) (type : SubvolumeType) (directIo : Bool) : Service Unit :=
  onlyIf (type = .block) do
    let found ← run (.imageExists fs name)
    onlyIf found do
      let _ ← orCommandFailed (← run (.losetupAttach (imagePath fs name) directIo))

def materializeSubvolFromSnapshot (fs snapshot destination : Name) (ownerFilter : Option Name) :
    Service Unit := do
  let _ ← orCommandFailed (← run (.subvolumeSnapshot fs snapshot destination false))
  let snapMeta ← run (.attributes fs snapshot)
  each ownerFilter.toList fun owner =>
    setXattr fs destination (.owner owner) ("set owner on " ++ .ofList (subvolPath fs destination))
  attachCopy fs destination snapMeta.subvolumeType snapMeta.directIo

/-- A clone that exists is the answer only if it was made from this source. -/
def checkCloneSource (fs newName source : Name) : Service Unit := do
  let recorded := (← run (.attributes fs newName)).cloneSource
  refuse (recorded ≠ some source) (.existingIncompatible ("clone destination " ++
    .ofList newName ++ " has source " ++
    debugOption (fun s => reprStr (String.ofList s)) recorded ++ ", requested " ++
    .ofList source))

def recordCloneSource (fs newName source : Name) : Service Unit :=
  setXattr fs newName (.cloneSource source)
    ("record clone source on " ++ .ofList (subvolPath fs newName))

def checkIdentity (fs source newName identity : Name) (what : String) : Service Unit := do
  let now ← orCommandFailed (← run (.pathIdentity fs source))
  refuse (now ≠ identity)
    (.commandFailed (what ++ " source changed while cloning into " ++ .ofList newName))

def lockedAll {α : Type} (fs : Name) (names : List Name) (body : Service α) : Service α :=
  ((names.insertionSort (· ≤ ·)).dedup).foldr (locked fs) body

def cloneSnapshotLocked (fs subvolume snapshot newName : Name) (ownerFilter : Option Name)
    (allowAdminOverride : Bool) : Service Subvolume := do
  let parent ← ofExcept (orNotFound (← attempt (get fs subvolume ownerFilter)))
  refuse (parent = none ∧ ownerFilter = none ∧ ¬ allowAdminOverride) .accessDenied
  let _ ← filesystemOf fs
  let snap := snapName subvolume snapshot
  refuse (¬ (← run (.pathExists fs snap))) (.notFound ("snapshot ".toList ++ snap))
  let snapshotMeta ← run (.attributes fs snap)
  ofExcept (match parent with
    | some parent => authorizeSnapshotProvenance snapshotMeta.owner parent.owner ownerFilter
        allowAdminOverride
    | none => authorizeOrphanSnapshot snapshotMeta.owner ownerFilter allowAdminOverride)
  let sourceIdentity ← orCommandFailed (← run (.pathIdentity fs snap))
  let cloneSource := "snapshot:".toList ++ sourceIdentity
  let present ← run (.pathExists fs newName)
  if present then
    let existing ← get fs newName ownerFilter
    checkCloneSource fs newName cloneSource
    return existing
  else
    materializeSubvolFromSnapshot fs snap newName ownerFilter
    checkIdentity fs snap newName sourceIdentity "snapshot"
    recordCloneSource fs newName cloneSource
    get fs newName ownerFilter

def cloneSnapshot (fs subvolume snapshot newName : Name) (ownerFilter : Option Name)
    (allowAdminOverride : Bool) : Service Subvolume := do
  ofExcept (validateExistingSnapshotName subvolume snapshot)
  ofExcept (validateSubvolumeName newName)
  lockedAll fs [subvolume, newName]
    (cloneSnapshotLocked fs subvolume snapshot newName ownerFilter allowAdminOverride)

def cloneSubvolumeLocked (fs name newName : Name) (ownerFilter : Option Name) :
    Service Subvolume := do
  let parent ← get fs name ownerFilter
  let _ ← filesystemOf fs
  refuse (¬ (← run (.pathExists fs name))) (.notFound name)
  let sourceIdentity ← orCommandFailed (← run (.pathIdentity fs name))
  let cloneSource := "subvolume:".toList ++ sourceIdentity
  let present ← run (.pathExists fs newName)
  if present then
    checkCloneSource fs newName cloneSource
    get fs newName none
  else
    flush parent
    let _ ← orCommandFailed (← run (.subvolumeSnapshot fs name newName false))
    checkIdentity fs name newName sourceIdentity "subvolume"
    writeMetaXattrs fs newName (metaXattrs parent.subvolumeType parent.volsizeBytes none none
      ownerFilter parent.directIo parent.blockFilesystem parent.blockFilesystemUuid)
    recordCloneSource fs newName cloneSource
    attachCopy fs newName parent.subvolumeType parent.directIo
    get fs newName none

def cloneSubvolume (fs name newName : Name) (ownerFilter : Option Name) : Service Subvolume := do
  ofExcept (validateSubvolumeName name)
  ofExcept (validateSubvolumeName newName)
  locked fs newName (cloneSubvolumeLocked fs name newName ownerFilter)

def safetyName (now : ℕ) : Name := "pre-rollback-".toList ++ Nat.toDigits 10 now

def rollbackChecks (fs subvolume snapshot : Name) (ownerFilter : Option Name)
    (allowAdminOverride : Bool) : Service Subvolume := do
  let live ← get fs subvolume ownerFilter
  refuse (live.subvolumeType = .block) (.commandFailed
    "rollback is not yet supported for block subvolumes (iSCSI / NVMe-oF / VM disks)")
  let _ ← filesystemOf fs
  let snap := snapName subvolume snapshot
  refuse (¬ (← run (.pathExists fs snap))) (.notFound ("snapshot ".toList ++ snap))
  let snapshotMeta ← run (.attributes fs snap)
  ofExcept (authorizeSnapshotProvenance snapshotMeta.owner live.owner ownerFilter
    allowAdminOverride)
  return live

def rollbackRecreate (fs subvolume snapshot safety : Name) (quotaBytes : Option ℕ)
    (ownerFilter : Option Name) : Service (Subvolume × Name) := do
  let result ← attempt (materializeSubvolFromSnapshot fs (snapName subvolume snapshot) subvolume
    ownerFilter)
  ofExcept (result.mapError fun e => .commandFailed
    ("rollback: recreating from snapshot failed (" ++ e.message ++
      "). Recover from safety snapshot '" ++ .ofList (snapName subvolume safety) ++
      "' or the target '@" ++ .ofList snapshot ++ "'."))
  let _ ← run (.other "set_project_quota"
    [subvolPath fs subvolume, Nat.toDigits 10 (quotaBytes.getD 0)])
  let recreated ← get fs subvolume none
  return (recreated, safety)

def rollback (fs subvolume snapshot : Name) (ownerFilter : Option Name)
    (allowAdminOverride : Bool) : Service (Subvolume × Name) := do
  ofExcept (validateExistingSnapshotName subvolume snapshot)
  locked fs subvolume do
    let live ← rollbackChecks fs subvolume snapshot ownerFilter allowAdminOverride
    let children ← findChildSubvolumes fs subvolume
    refuse (children ≠ []) (.commandFailed ("rollback refused: '" ++ .ofList subvolume ++
      "' has nested subvolumes (" ++ .ofList (Text.join ", ".toList children) ++
      "). Roll those back individually."))
    let safety := safetyName (← run .unixTime)
    createSnapshotLocked fs subvolume safety ownerFilter
    let _ ← orFail (fun e => .commandFailed ("rollback: deleting live subvolume failed (" ++ e ++
        "). Your data is intact in safety snapshot '" ++ .ofList (snapName subvolume safety) ++
        "'.")) (← run (.subvolumeDelete fs subvolume))
    rollbackRecreate fs subvolume snapshot safety live.quotaBytes ownerFilter

/-! ## Loop devices after a start -/

structure BlockDeviceMappings where
  current : List (BlockVolumeId × Name)
  preexisting : List (Name × BlockVolumeId)

def listAll : Service (List Subvolume) := do
  let filesystems ← orCommandFailed (← run .mounted)
  collect filesystems fun fs => list fs.name none

/-- The device that the image of a subvolume with an identity is attached to. -/
def observeExisting (subvolume : Subvolume) : Service (List (BlockVolumeId × Name)) :=
  match subvolume.blockVolumeId with
  | none => pure []
  | some identity => do
    let device ← findLoopDevice subvolume.filesystem subvolume.name
    return (device.map (Prod.mk identity)).toList

def BlockDeviceMappings.record (m : BlockDeviceMappings) (evidence : List (Name × BlockVolumeId))
    (identity : BlockVolumeId) (device : Name) : BlockDeviceMappings where
  current := m.current ++ [(identity, device)]
  preexisting :=
    if evidence.lookup device = some identity then m.preexisting ++ [(device, identity)]
    else m.preexisting

/-- Every block subvolume keeps its device, which is used once, or gets one. -/
def restoreEach (evidence : List (Name × BlockVolumeId)) (existing : BlockVolumeId → Option Name)
    (mappings : BlockDeviceMappings) : List Subvolume → Service BlockDeviceMappings
  | [] => pure mappings
  | subvolume :: rest =>
    match subvolume.blockVolumeId with
    | none => restoreEach evidence existing mappings rest
    | some identity => do
      let found ← run (.imageExists subvolume.filesystem subvolume.name)
      match found, existing identity with
      | false, _ => restoreEach evidence existing mappings rest
      | true, some device =>
        restoreEach evidence (Function.update existing identity none)
          (mappings.record evidence identity device) rest
      | true, none =>
        let attached ← run (.losetupAttach (imagePath subvolume.filesystem subvolume.name)
          subvolume.directIo)
        restoreEach evidence existing (match attached with
          | .ok output => mappings.record evidence identity (Text.trim output)
          | .error _ => mappings) rest

def restoreBody : Service BlockDeviceMappings := do
  let all ← attempt listAll
  match all with
  | .error _ => return ⟨[], []⟩
  | .ok all =>
    let blockSubvols := all.filter (·.subvolumeType = .block)
    let existing ← collect blockSubvols observeExisting
    let evidence ← run (.legacyEvidence (existing.map Prod.swap))
    match evidence with
    | .error _ => return ⟨[], []⟩
    | .ok evidence =>
      restoreEach evidence (Function.insertAll Prod.fst Prod.snd existing) ⟨[], []⟩ blockSubvols

def restoreBlockDevices : Service BlockDeviceMappings := do
  run .lockRestore
  let result ← attempt restoreBody
  run .unlockRestore
  ofExcept result

/-! ## Operations -/

inductive Op
  | create (req : CreateSubvolumeRequest) (owner : Option Name)
  | createVmDisk (fs name : Name) (volsizeBytes : ℕ) (owner : Option Name)
  | delete (fs name : Name) (ownerFilter : Option Name)
  | attach (fs name : Name) (ownerFilter : Option Name)
  | detach (fs name : Name) (ownerFilter : Option Name)
  | cloneSnapshot (fs subvolume snapshot newName : Name) (ownerFilter : Option Name)
      (allowAdminOverride : Bool)
  | cloneSubvolume (fs name newName : Name) (ownerFilter : Option Name)
  | rollback (fs subvolume snapshot : Name) (ownerFilter : Option Name)
      (allowAdminOverride : Bool)
  | restoreBlockDevices

def Op.body : Op → Service Unit
  | create req owner => (Subvolumes.create req owner).void
  | createVmDisk fs name bytes owner => (Subvolumes.createVmDisk fs name bytes owner).void
  | delete fs name filter => Subvolumes.delete fs name filter
  | attach fs name filter => (Subvolumes.attach fs name filter).void
  | detach fs name filter => (Subvolumes.detach fs name filter).void
  | cloneSnapshot fs subvolume snapshot newName filter override =>
    (Subvolumes.cloneSnapshot fs subvolume snapshot newName filter override).void
  | cloneSubvolume fs name newName filter =>
    (Subvolumes.cloneSubvolume fs name newName filter).void
  | rollback fs subvolume snapshot filter override =>
    (Subvolumes.rollback fs subvolume snapshot filter override).void
  | restoreBlockDevices => Subvolumes.restoreBlockDevices.void

end Nasty.Subvolumes
