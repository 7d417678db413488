import Nasty.Sharing.Luns
import Nasty.Sharing.Nvmeof
import Nasty.Subvolumes.Service

/-!
# Exports after the loop devices were numbered anew

A LUN or a namespace with a managed backing remembers the identity of its volume. After a start the
volume may be on another loop device, so both services look the identity up in the mappings and
write the new path to their state files; the iSCSI service also patches the file from which the
kernel's configuration is restored. Whatever cannot be resolved makes the restore unsafe.

1. `remap_resolved`: what is resolved has an identity and the device of that identity.
2. `patchSaveconfigValue_dev`: a save file that is accepted has one object for each name, at the
   path that belongs to the name.
-/

namespace Nasty.Sharing

open List Except

open Subvolumes (BlockVolumeId BlockDeviceMappings Name)

/-! ## State directories -/

class HasId (α : Type) where
  id : α → Name

instance : HasId IscsiTarget := ⟨IscsiTarget.id⟩

instance : HasId NvmeofSubsystem := ⟨NvmeofSubsystem.id⟩

structure StateDir (α : Type) [HasId α] where
  items : List α
  nodup : (items.map HasId.id).Nodup

def StateDir.replace {α : Type} [HasId α] (a : α) (items : List α) : List α :=
  items.map fun x => if HasId.id x = HasId.id a then a else x

variable {α : Type}

theorem StateDir.map_id_replace [HasId α] (a : α) (items : List α) :
    (replace a items).map HasId.id = items.map HasId.id := by
  rw [replace, map_map]
  refine map_congr_left fun x _ => ?_
  by_cases h : HasId.id x = HasId.id a <;> simp [h]

def StateDir.save {α : Type} [HasId α] (a : α) (d : StateDir α) : StateDir α :=
  if h : HasId.id a ∈ d.items.map HasId.id then
    ⟨replace a d.items, map_id_replace a d.items ▸ d.nodup⟩
  else
    ⟨a :: d.items, by rw [map_cons, nodup_cons]; exact ⟨h, d.nodup⟩⟩

section StateDir

variable {α : Type} [HasId α]

theorem StateDir.replace_append {a b : α} {pre post : List α} (hid : HasId.id b = HasId.id a)
    (hpre : HasId.id a ∉ pre.map HasId.id) (hpost : HasId.id a ∉ post.map HasId.id) :
    replace b (pre ++ a :: post) = pre ++ b :: post := by
  have hkeep : ∀ items : List α, HasId.id a ∉ items.map HasId.id → replace b items = items := by
    intro items hitems
    refine (map_congr_left fun x hx => if_neg fun h => hitems ?_).trans (map_id _)
    rw [← hid, ← h]
    exact mem_map_of_mem hx
  have hsplit : replace b (pre ++ a :: post) =
      replace b pre ++ (if HasId.id a = HasId.id b then b else a) :: replace b post := by
    simp [replace]
  rw [hsplit, hkeep pre hpre, hkeep post hpost, if_pos hid.symm]

/-- Saving items that keep their ids, one after the other, changes each in its place. -/
theorem StateDir.foldl_save {f : α → α} {c : α → Bool} (hf : ∀ a, HasId.id (f a) = HasId.id a)
    (d : StateDir α) :
    (d.items.foldl (fun d a => if c a then d.save (f a) else d) d).items =
      d.items.map fun a => if c a then f a else a := by
  -- The items so far are in their places, and the rest is as it was.
  suffices h : ∀ (post pre : List α) (e : StateDir α),
      e.items = pre.map (fun a => if c a then f a else a) ++ post →
      (post.foldl (fun d a => if c a then d.save (f a) else d) e).items =
        (pre ++ post).map fun a => if c a then f a else a from h d.items [] d rfl
  intro post
  induction post with
  | nil =>
    intro pre e he
    simpa using he
  | cons a post ih =>
  intro pre e he
  rw [foldl_cons, append_cons]
  refine ih (pre ++ [a]) _ ?_
  by_cases hc : c a = true
  · have hnodup := e.nodup
    rw [he, map_append, map_map, map_cons, nodup_append, nodup_cons]
      at hnodup
    obtain ⟨-, ⟨hpost, -⟩, hdisjoint⟩ := hnodup
    have hpre : HasId.id a ∉ (pre.map fun a => if c a then f a else a).map HasId.id := by
      rw [map_map]
      exact fun hmem => hdisjoint _ hmem _ mem_cons_self rfl
    have hmem : HasId.id (f a) ∈ e.items.map HasId.id := by
      rw [hf, he, map_append]
      exact mem_append_right _ mem_cons_self
    rw [save, dif_pos hmem]
    simp only [he, map_append, map_cons, if_pos hc, append_assoc]
    exact replace_append (hf a) hpre hpost
  · simp [he, hc]

end StateDir

namespace Remap

/-! ## Backings -/

structure Backing where
  identity : Option BlockVolumeId
  path : Name
  unresolved : Bool

structure Remapped (α : Type) where
  item : α
  changed : Bool
  safe : Bool

def legacyIdentityForExactPath (m : BlockDeviceMappings) (path : Name) : Option BlockVolumeId :=
  m.preexisting.lookup path

/-- The identity, recorded or by the evidence, and the device that it is attached to now. -/
def Backing.resolve (m : BlockDeviceMappings) (b : Backing) : Option (BlockVolumeId × Name) := do
  let identity ← b.identity.or (legacyIdentityForExactPath m b.path)
  let device ← m.current.lookup identity
  return (identity, device)

def Backing.remap (m : BlockDeviceMappings) (b : Backing) : Remapped Backing :=
  match b.resolve m with
  | some (identity, device) =>
    ⟨⟨some identity, device, false⟩,
      b.identity ≠ some identity ∨ b.path ≠ device ∨ b.unresolved, true⟩
  | none => ⟨{ b with unresolved := true }, b.unresolved = false, false⟩

/-- The identity stays, or it is the one that the evidence has for the path. -/
def Backing.Follows (m : BlockDeviceMappings) (b b' : Backing) : Prop :=
  b'.identity = b.identity ∨
    b.identity = none ∧ ∃ id, b'.identity = some id ∧ m.preexisting.lookup b.path = some id

def Backing.Resolved (m : BlockDeviceMappings) (b : Backing) : Prop :=
  ∃ id, b.identity = some id ∧ m.current.lookup id = some b.path

section Backing

variable {m : BlockDeviceMappings} {b : Backing}

theorem Backing.resolve_eq_some {identity : BlockVolumeId} {device : Name}
    (h : b.resolve m = some (identity, device)) :
    (b.identity = some identity ∨ b.identity = none ∧ m.preexisting.lookup b.path = some identity) ∧
      m.current.lookup identity = some device := by
  obtain ⟨id, hid, h⟩ := Option.bind_eq_some_iff.1 h
  obtain ⟨dev, hdev, h⟩ := Option.bind_eq_some_iff.1 h
  cases h
  exact ⟨Option.or_eq_some_iff.1 hid, hdev⟩

theorem Backing.remap_follows (m : BlockDeviceMappings) (b : Backing) :
    b.Follows m (b.remap m).item := by
  unfold remap
  rcases h : b.resolve m with _ | ⟨identity, device⟩
  · exact .inl rfl
  · rcases (resolve_eq_some h).1 with hid | ⟨hnone, hid⟩
    · exact .inl hid.symm
    · exact .inr ⟨hnone, identity, rfl, hid⟩

theorem Backing.remap_resolved (h : (b.remap m).safe) : (b.remap m).item.Resolved m := by
  unfold remap at h ⊢
  rcases hr : b.resolve m with _ | ⟨identity, device⟩
  · rw [hr] at h
    exact nomatch h
  · exact ⟨identity, rfl, (resolve_eq_some hr).2⟩

theorem Backing.remap_unchanged (h : (b.remap m).changed = false) : (b.remap m).item = b := by
  unfold remap at h ⊢
  rcases hr : b.resolve m with _ | ⟨identity, device⟩ <;> rw [hr] at h
  · have hunresolved : b.unresolved = true := by simpa using h
    simp [← hunresolved]
  · have hsame : b.identity = some identity ∧ b.path = device ∧ b.unresolved = false := by
      simpa using h
    simp [← hsame.1, ← hsame.2.1, ← hsame.2.2]

end Backing

/-! ## LUNs and namespaces -/

/-- What is exported from a device. -/
class Backed (α : Type) where
  backing : α → Backing
  withBacking : Backing → α → α
  managed : α → Bool
  backing_with : ∀ b a, backing (withBacking b a) = b
  with_backing : ∀ a, withBacking (backing a) a = a

section Backed

variable {α : Type} [Backed α] (m : BlockDeviceMappings)

def remap (a : α) : Remapped α :=
  if Backed.managed a then
    let r := (Backed.backing a).remap m
    ⟨Backed.withBacking r.item a, r.changed, r.safe⟩
  else ⟨a, false, true⟩

def remapAll (items : List α) : Remapped (List α) :=
  let rs := items.map (remap m)
  ⟨rs.map (·.item), rs.any (·.changed), rs.all (·.safe)⟩

end Backed

def loopPath : Name := "/dev/loop".toList

def unresolvedBackstore : Name := "/dev/nasty-unresolved-block-volume".toList

def lunBacking (l : Lun) : Backing := ⟨l.backingVolume, l.backstorePath, l.backingVolumeUnresolved⟩

def isManagedLun (l : Lun) : Bool :=
  l.backstoreType = .block &&
    (l.backingVolume.isSome || l.backingVolumeUnresolved || loopPath.isPrefixOf l.backstorePath)

instance : Backed Lun where
  backing := lunBacking
  withBacking b l :=
    { l with
      backingVolume := b.identity
      backstorePath := b.path
      backingVolumeUnresolved := b.unresolved }
  managed := isManagedLun
  backing_with _ _ := rfl
  with_backing _ := rfl

structure TargetRemap extends Remapped IscsiTarget where
  /-- The paths of the backstores in the save file. -/
  patches : List (Name × Name)

def lunPatches (m : BlockDeviceMappings) (l : Lun) : List (Name × Name) :=
  let r := remap m l
  if isManagedLun l then
    [(l.backstoreName, if r.safe then r.item.backstorePath else unresolvedBackstore)]
  else []

def remapTarget (m : BlockDeviceMappings) (t : IscsiTarget) : TargetRemap :=
  let r := remapAll m t.luns
  ⟨⟨{ t with luns := r.item }, r.changed, r.safe⟩, t.luns.flatMap (lunPatches m)⟩

def namespaceBacking (ns : Namespace) : Backing :=
  ⟨ns.backingVolume, ns.devicePath, ns.backingVolumeUnresolved⟩

def isManagedNamespace (ns : Namespace) : Bool :=
  ns.backingVolume.isSome || ns.backingVolumeUnresolved || loopPath.isPrefixOf ns.devicePath

instance : Backed Namespace where
  backing := namespaceBacking
  withBacking b ns :=
    { ns with
      backingVolume := b.identity
      devicePath := b.path
      backingVolumeUnresolved := b.unresolved }
  managed := isManagedNamespace
  backing_with _ _ := rfl
  with_backing _ := rfl

def remapSubsystem (m : BlockDeviceMappings) (s : NvmeofSubsystem) : Remapped NvmeofSubsystem :=
  let r := remapAll m s.namespaces
  ⟨{ s with namespaces := r.item }, r.changed, r.safe⟩

/-! ## The save file -/

inductive Json
  | null
  | bool (b : Bool)
  | num (n : ℤ)
  | str (text : Name)
  | arr (items : List Json)
  | obj (fields : List (Name × Json))

namespace Json

def get (key : String) : Json → Option Json
  | obj fields => fields.lookup key.toList
  | _ => none

def asStr : Json → Option Name
  | str text => some text
  | _ => none

def asArray : Json → Option (List Json)
  | arr items => some items
  | _ => none

def set (key : String) (j value : Json) : Json :=
  match j with
  | obj fields => obj (fields.map fun f => if f.1 = key.toList then (f.1, value) else f)
  | j => j

def getStr (key : String) (j : Json) : Option Name := (j.get key).bind asStr

def getArray (key : String) (j : Json) : Option (List Json) := (j.get key).bind asArray

end Json

abbrev Patches := AList fun _ : Name => Name

def insertBackstorePatch (acc : Patches × Bool) (patch : Name × Name) : Patches × Bool :=
  match acc.1.lookup patch.1 with
  | none => (acc.1.insert patch.1 patch.2, acc.2)
  | some path => (acc.1, acc.2 && path = patch.2)

structure PatchedObject where
  object : Json
  changed : Bool
  /-- The backstore whose device the object has. -/
  matched : Option Name

def objectName (object : Json) : Name := (object.getStr "name").getD []

def patchObject (backstores : Patches) (object : Json) : Except String PatchedObject :=
  let name := objectName object
  match backstores.lookup name with
  | none => .error ("saveconfig contains unexpected backstore '" ++ .ofList name ++ "'")
  | some newDev =>
    match object.getStr "dev" with
    | none => .ok ⟨object, false, none⟩
    | some dev =>
      .ok ⟨if dev ≠ newDev then object.set "dev" (.str newDev) else object, dev ≠ newDev, some name⟩

def patchObjects (backstores : Patches) : List Json → Except String (List PatchedObject)
  | [] => .ok []
  | object :: objects => do
    let patched ← patchObject backstores object
    let rest ← patchObjects backstores objects
    return patched :: rest

def checkCounts (missing : Name → String) (repeated : Name → ℕ → String) (found : List Name) :
    List Name → Except String Unit
  | [] => .ok ()
  | name :: names => do
    .refuse (found.count name = 0) (missing name)
    .refuse (found.count name ≠ 1) (repeated name (found.count name))
    checkCounts missing repeated found names

def savedTargets (targets : List Name) : List Json → Except String (List Name)
  | [] => .ok []
  | saved :: rest => do
    let wwn ← (saved.getStr "wwn").elim (.error "saveconfig target has no wwn") .ok
    .refuse (wwn ∉ targets) ("saveconfig contains unexpected target '" ++ .ofList wwn ++ "'")
    let wwns ← savedTargets targets rest
    return wwn :: wwns

def arrayOf (key : String) (json : Json) : Except String (List Json) :=
  (json.getArray key).elim (.error ("saveconfig has no " ++ key ++ " array")) .ok

def patchSaveconfigValue (json : Json) (backstores : Patches) (targets : List Name) :
    Except String (Json × Bool) := do
  let objects ← arrayOf "storage_objects" json
  let patched ← patchObjects backstores objects
  .refuse (objects.length ≠ backstores.keys.length)
    ("saveconfig contains " ++ toString objects.length ++
      " backstores but persisted state expects " ++ toString backstores.keys.length)
  checkCounts (fun name => "saveconfig is missing backstore '" ++ .ofList name ++ "'")
    (fun name count => "saveconfig contains " ++ toString count ++ " backstores named '" ++
      .ofList name ++ "'") (patched.filterMap (·.matched)) backstores.keys
  let saved ← arrayOf "targets" json
  let wwns ← savedTargets targets saved
  checkCounts (fun wwn => "saveconfig is missing target '" ++ .ofList wwn ++ "'")
    (fun wwn count => "saveconfig contains target '" ++ .ofList wwn ++ "' " ++ toString count ++
      " times") wwns targets
  return (json.set "storage_objects" (.arr (patched.map (·.object))), patched.any (·.changed))

inductive SaveFile
  | missing
  | unreadable (error : String)
  | json (value : Json)

/-- What may go wrong: loading, saving an item, and writing the save file, with what it then is. -/
structure Env where
  load : Option String
  save : Name → Option String
  write : Option (String × SaveFile)

def patchSaveconfig (env : Env) (backstores : Patches) (targets : List Name) :
    SaveFile → SaveFile × Except String Unit
  | .missing => (.missing, .error "read /etc/target/saveconfig.json: No such file or directory")
  | .unreadable e => (.unreadable e, .error e)
  | .json value =>
    match patchSaveconfigValue value backstores targets with
    | .error e => (.json value, .error e)
    | .ok (value', changed) =>
      if changed then
        match env.write with
        | some (e, left) => (left, .error ("write /etc/target/saveconfig.json: " ++ e))
        | none => (.json value', .ok ())
      else (.json value, .ok ())

def validateEmpty (key : String) (json : Json) : Except String Unit := do
  let values ← arrayOf key json
  .refuse (values ≠ []) ("saveconfig contains " ++ toString values.length ++ " stale " ++ key ++
    " entries but iSCSI state is empty")

def validateNoSavedExports : SaveFile → Except String Unit
  | .missing => .ok ()
  | .unreadable e => .error e
  | .json value => do
    validateEmpty "storage_objects" value
    validateEmpty "targets" value

/-! ## Both services -/

structure DeviceRemapOutcome where
  safeToRestore : Bool
  changed : Bool
  deriving DecidableEq

structure Progress where
  files : StateDir IscsiTarget
  patches : Patches
  safe : Bool
  changed : Bool

/-- The paths that a target contributes; those of a target that could not be saved lead nowhere. -/
def targetPatches (persisted : Bool) (r : TargetRemap) : List (Name × Name) :=
  (if persisted then r.patches else []) ++ r.item.luns.map fun l =>
    (l.backstoreName, if persisted || !isManagedLun l then l.backstorePath else unresolvedBackstore)

def isPersisted (env : Env) (m : BlockDeviceMappings) (t : IscsiTarget) : Bool :=
  !(remapTarget m t).changed || (env.save t.id).isNone

def remapStep (env : Env) (m : BlockDeviceMappings) (p : Progress) (t : IscsiTarget) : Progress :=
  let r := remapTarget m t
  let persisted := isPersisted env m t
  let patched := (targetPatches persisted r).foldl insertBackstorePatch
    (p.patches, p.safe && persisted && r.safe)
  ⟨if r.changed && persisted then p.files.save r.item else p.files, patched.1, patched.2,
    p.changed || r.changed⟩

structure IscsiState where
  targets : StateDir IscsiTarget
  saveconfig : SaveFile

def remapDevicePaths (env : Env) (m : BlockDeviceMappings) (w : IscsiState) :
    DeviceRemapOutcome × IscsiState :=
  if env.load.isSome then (⟨false, false⟩, w)
  else if w.targets.items = [] then (⟨(validateNoSavedExports w.saveconfig).isOk, false⟩, w)
  else
    let p := w.targets.items.foldl (remapStep env m) ⟨w.targets, ∅, true, false⟩
    let patched := patchSaveconfig env p.patches (w.targets.items.map (·.iqn)) w.saveconfig
    (⟨p.safe && patched.2.isOk, p.changed⟩, ⟨p.files, patched.1⟩)

namespace Nvmeof

/-- The kernel's tree: the directories of the subsystems with those of their namespaces. Reading
it may fail. -/
structure Live where
  error : Option String
  subsystems : List (Name × List Name)

/-- The prefixes that were in use: the file of earlier ones, and the current one if it is valid. -/
structure Prefixes where
  history : Except NvmeofError (List Name)
  base : Option Name

def defaultNqnPrefix : Name := "nqn.2137-04.storage.nasty".toList

def persistedPrefixes (persisted : List NvmeofSubsystem) : List Name :=
  defaultNqnPrefix :: persisted.filterMap fun s => (Text.splitOnce ':' s.nqn).map (·.1)

def managedPrefixes (p : Prefixes) (persisted : List NvmeofSubsystem) :
    Except NvmeofError (List Name) := do
  let history ← p.history
  return persistedPrefixes persisted ++ history ++ p.base.toList

def isManagedNqn (prefixes : List Name) (nqn : Name) : Bool :=
  prefixes.any fun p => (p ++ [':']).isPrefixOf nqn

def checkNamespaces (nqn : Name) (expected : List ℕ) : List Name → Except NvmeofError Unit
  | [] => .ok ()
  | entry :: entries => do
    let nsid ← (Text.unsigned (2 ^ 32 - 1) entry).elim (.error (.configFs ("live subsystem '" ++
      .ofList nqn ++ "' has invalid namespace entry '" ++ .ofList entry ++ "'"))) .ok
    .refuse (nsid ∉ expected) (.configFs ("live subsystem '" ++ .ofList nqn ++ "' namespace " ++
      toString nsid ++ " has no persisted state"))
    checkNamespaces nqn expected entries

def checkLive (prefixes : List Name) (expected : List NvmeofSubsystem) :
    List (Name × List Name) → Except NvmeofError Unit
  | [] => .ok ()
  | (nqn, entries) :: rest => do
    if isManagedNqn prefixes nqn then
      match expected.reverse.find? (·.nqn = nqn) with
      | none =>
        .error (.configFs ("live subsystem '" ++ .ofList nqn ++ "' has no persisted state"))
      | some s => checkNamespaces nqn (s.namespaces.map (·.nsid)) entries
    checkLive prefixes expected rest

def validateManagedConfigfsInventory (p : Prefixes) (live : Live) (expected : List NvmeofSubsystem) :
    Except NvmeofError Unit := do
  let prefixes ← managedPrefixes p expected
  live.error.elim (.ok ()) fun e => .error (.io e)
  checkLive prefixes expected live.subsystems

structure Progress where
  files : StateDir NvmeofSubsystem
  safe : Bool
  changed : Bool

def remapStep (env : Env) (m : BlockDeviceMappings) (p : Progress) (s : NvmeofSubsystem) :
    Progress :=
  let r := remapSubsystem m s
  let saved := (env.save s.id).isNone
  ⟨if r.changed && saved then p.files.save r.item else p.files,
    p.safe && r.safe && (!r.changed || saved), p.changed || r.changed⟩

def remapDevicePaths (env : Env) (prefixes : Prefixes) (live : Live) (m : BlockDeviceMappings)
    (files : StateDir NvmeofSubsystem) : DeviceRemapOutcome × StateDir NvmeofSubsystem :=
  if env.load.isSome then (⟨false, false⟩, files)
  else
    let safe := (validateManagedConfigfsInventory prefixes live files.items).isOk
    let p := files.items.foldl (remapStep env m) ⟨files, safe, false⟩
    (⟨p.safe, p.changed⟩, p.files)

end Nvmeof

/-! ## What a LUN or a namespace becomes -/

open Backed

section

variable {α : Type} [Backed α] {m : BlockDeviceMappings} {a : α} {items : List α}

theorem remap_follows (m : BlockDeviceMappings) (a : α) :
    (backing a).Follows m (backing (remap m a).item) := by
  unfold remap
  split_ifs
  · rw [backing_with]
    exact Backing.remap_follows m (backing a)
  · exact .inl rfl

theorem remap_unchanged (h : (remap m a).changed = false) : (remap m a).item = a := by
  unfold remap at h ⊢
  split_ifs at h ⊢
  · show withBacking ((backing a).remap m).item a = a
    rw [Backing.remap_unchanged h, with_backing]
  · rfl

theorem remap_resolved (h : (remap m a).safe) (hmanaged : managed (remap m a).item) :
    (backing (remap m a).item).Resolved m := by
  unfold remap at h hmanaged ⊢
  split_ifs at h hmanaged ⊢ with ha
  · rw [backing_with]
    exact Backing.remap_resolved h
  · exact absurd hmanaged ha

theorem remapAll_unchanged (h : (remapAll m items).changed = false) :
    (remapAll m items).item = items := by
  show (items.map (remap m)).map (·.item) = items
  rw [map_map]
  refine (map_congr_left fun a ha => remap_unchanged ?_).trans (map_id _)
  exact any_eq_false.1 h _ (mem_map_of_mem ha) |> Bool.eq_false_iff.2

theorem remapAll_resolved (h : (remapAll m items).safe) (ha : a ∈ (remapAll m items).item)
    (hmanaged : managed a) : (backing a).Resolved m := by
  obtain ⟨r, hr, rfl⟩ := mem_map.1 ha
  have hsafe := all_eq_true.1 h r hr
  obtain ⟨a, -, rfl⟩ := mem_map.1 hr
  exact remap_resolved hsafe hmanaged

theorem remapAll_follows {R : α → α → Prop} (h : ∀ a, R a (remap m a).item) (items : List α) :
    List.Forall₂ R items (remapAll m items).item := by
  show List.Forall₂ R items ((items.map (remap m)).map (·.item))
  rw [map_map, forall₂_map_right_iff, forall₂_same]
  exact fun a _ => h a

end

section

variable {m : BlockDeviceMappings}

theorem remapTarget_unchanged {t : IscsiTarget} (h : (remapTarget m t).changed = false) :
    (remapTarget m t).item = t := by
  show { t with luns := (remapAll m t.luns).item } = t
  rw [remapAll_unchanged h]

theorem remapSubsystem_unchanged {s : NvmeofSubsystem} (h : (remapSubsystem m s).changed = false) :
    (remapSubsystem m s).item = s := by
  show { s with namespaces := (remapAll m s.namespaces).item } = s
  rw [remapAll_unchanged h]

end

/-! ## Patches -/

section

variable {patches : Patches} {safe : Bool} {entries : List (Name × Name)}

theorem insertBackstorePatch_lookup {name path : Name} (e : Name × Name)
    (h : patches.lookup name = some path) :
    (insertBackstorePatch (patches, safe) e).1.lookup name = some path := by
  unfold insertBackstorePatch
  cases he : patches.lookup e.1 with
  | none =>
    have hne : name ≠ e.1 := by
      rintro rfl
      exact nomatch h.symm.trans he
    exact (AList.lookup_insert_ne hne).trans h
  | some old => exact h

theorem insertBackstorePatch_safe {e : Name × Name}
    (h : (insertBackstorePatch (patches, safe) e).2) :
    safe ∧ (insertBackstorePatch (patches, safe) e).1.lookup e.1 = some e.2 := by
  unfold insertBackstorePatch at h ⊢
  cases he : patches.lookup e.1 with
  | none =>
    rw [he] at h
    exact ⟨h, AList.lookup_insert patches⟩
  | some old =>
    rw [he] at h
    obtain ⟨hsafe, hold⟩ := Bool.and_eq_true_iff.1 h
    exact ⟨hsafe, he.trans (congrArg some (of_decide_eq_true hold))⟩

theorem insertPatches_lookup {name path : Name} (h : patches.lookup name = some path) :
    (entries.foldl insertBackstorePatch (patches, safe)).1.lookup name = some path := by
  induction entries generalizing patches safe with
  | nil => exact h
  | cons e entries ih => exact ih (insertBackstorePatch_lookup e h)

theorem insertPatches_safe (h : (entries.foldl insertBackstorePatch (patches, safe)).2) :
    safe ∧ ∀ e ∈ entries,
      (entries.foldl insertBackstorePatch (patches, safe)).1.lookup e.1 = some e.2 := by
  induction entries generalizing patches safe with
  | nil => exact ⟨h, nofun⟩
  | cons e entries ih =>
  rw [foldl_cons] at h ⊢
  obtain ⟨hsafe, hrest⟩ := ih h
  obtain ⟨hfirst, hlookup⟩ := insertBackstorePatch_safe hsafe
  rw [forall_mem_cons]
  exact ⟨hfirst, insertPatches_lookup hlookup, hrest⟩

end

section Loop

variable {env : Env} {m : BlockDeviceMappings} {p : Progress} {items : List IscsiTarget}

theorem remapLoop_lookup {name path : Name} (h : p.patches.lookup name = some path) :
    (items.foldl (remapStep env m) p).patches.lookup name = some path := by
  induction items generalizing p with
  | nil => exact h
  | cons t items ih => exact ih (insertPatches_lookup h)

theorem remapLoop_safe (h : (items.foldl (remapStep env m) p).safe) :
    p.safe ∧ ∀ t ∈ items, isPersisted env m t ∧ (remapTarget m t).safe ∧
      ∀ l ∈ (remapTarget m t).item.luns,
        (items.foldl (remapStep env m) p).patches.lookup l.backstoreName = some l.backstorePath := by
  induction items generalizing p with
  | nil => exact ⟨h, nofun⟩
  | cons t items ih =>
  rw [foldl_cons] at h ⊢
  obtain ⟨hstep, hrest⟩ := ih h
  obtain ⟨hsafe, hpatches⟩ := insertPatches_safe hstep
  simp only [Bool.and_eq_true] at hsafe
  obtain ⟨⟨hp, hpersisted⟩, htarget⟩ := hsafe
  rw [forall_mem_cons]
  refine ⟨hp, ⟨hpersisted, htarget, fun l hl => remapLoop_lookup ?_⟩, hrest⟩
  refine hpatches (l.backstoreName, l.backstorePath) (mem_append_right _ ?_)
  exact mem_map.2 ⟨l, hl, by simp [hpersisted]⟩

theorem remapLoop_files : (items.foldl (remapStep env m) p).files =
    items.foldl (fun d t => if (remapTarget m t).changed && isPersisted env m t then
      d.save (remapTarget m t).item else d) p.files := by
  induction items generalizing p with
  | nil => rfl
  | cons t items ih => exact ih

end Loop

/-! ## The patched save file -/

section

variable {key key' : String} {j value : Json} {fields : List (Name × Json)}

theorem lookup_set {a : Name} (h : fields.lookup a ≠ none) :
    (fields.map fun f => if f.1 = a then (f.1, value) else f).lookup a = some value := by
  induction fields with
  | nil => exact absurd rfl h
  | cons f fields ih =>
  rw [map_cons]
  by_cases hf : f.1 = a
  · rw [if_pos hf, hf]
    exact lookup_cons_self
  have hne : (a == f.1) = false := by simpa using Ne.symm hf
  rw [if_neg hf]
  rw [lookup_cons, hne] at h ⊢
  exact ih h

theorem lookup_set_of_ne {a b : Name} (hab : b ≠ a) :
    (fields.map fun f => if f.1 = a then (f.1, value) else f).lookup b = fields.lookup b := by
  induction fields with
  | nil => rfl
  | cons f fields ih =>
  rw [map_cons]
  by_cases hf : f.1 = a
  · have hne : (b == f.1) = false := by simpa [hf] using hab
    rw [if_pos hf, lookup_cons, lookup_cons, hne]
    exact ih
  · rw [if_neg hf, lookup_cons, lookup_cons, ih]

theorem Json.get_set (h : j.get key ≠ none) : (j.set key value).get key = some value := by
  cases j with
  | obj fields => exact lookup_set h
  | _ => exact absurd rfl h

theorem Json.get_set_of_ne (h : key'.toList ≠ key.toList) :
    (j.set key value).get key' = j.get key' := by
  cases j with
  | obj fields => exact lookup_set_of_ne h
  | _ => rfl

theorem Json.get_ne_none {f : Json → Option α} {a : α} (h : (j.get key).bind f = some a) :
    j.get key ≠ none := by
  intro hnone
  rw [hnone] at h
  cases h

variable {backstores : Patches} {rs : List PatchedObject} {targets : List Name}

theorem patchObject_spec {object : Json} {r : PatchedObject}
    (h : patchObject backstores object = .ok r) :
    (r.changed = false → r.object = object) ∧ ∀ name, r.matched = some name →
      objectName r.object = name ∧ r.object.getStr "dev" = backstores.lookup name := by
  unfold patchObject at h
  cases hlookup : backstores.lookup (objectName object) with
  | none =>
    simp only [hlookup] at h
    cases h
  | some newDev =>
  simp only [hlookup] at h
  cases hdev : object.getStr "dev" with
  | none =>
    simp only [hdev] at h
    cases h
    exact ⟨fun _ => rfl, nofun⟩
  | some dev =>
  simp only [hdev] at h
  cases h
  by_cases hsame : dev = newDev
  · refine ⟨fun _ => by simp [hsame], ?_⟩
    rintro _ ⟨⟩
    rw [if_neg (not_not.2 hsame), hdev, hlookup, hsame]
    exact ⟨rfl, rfl⟩
  refine ⟨fun hchanged => by simp [hsame] at hchanged, ?_⟩
  rintro _ ⟨⟩
  rw [if_pos hsame, hlookup]
  have hname : (object.set "dev" (.str newDev)).get "name" = object.get "name" :=
    Json.get_set_of_ne (by decide)
  have hnew : (object.set "dev" (.str newDev)).get "dev" = some (.str newDev) :=
    Json.get_set (Json.get_ne_none hdev)
  exact ⟨by rw [objectName, Json.getStr, hname]; rfl, by rw [Json.getStr, hnew]; rfl⟩

theorem patchObjects_spec {objects : List Json} (h : patchObjects backstores objects = .ok rs) :
    rs.length = objects.length ∧
      (rs.any (·.changed) = false → rs.map (·.object) = objects) ∧
      ∀ r ∈ rs, ∀ name, r.matched = some name →
        objectName r.object = name ∧ r.object.getStr "dev" = backstores.lookup name := by
  induction objects generalizing rs with
  | nil =>
    cases h
    exact ⟨rfl, fun _ => rfl, nofun⟩
  | cons object objects ih =>
  obtain ⟨r, hr, h⟩ := bind_eq_ok.1 h
  obtain ⟨rest, hrest, h⟩ := bind_eq_ok.1 h
  cases h
  obtain ⟨hlength, hsame, hdevs⟩ := ih hrest
  obtain ⟨hkept, hdev⟩ := patchObject_spec hr
  refine ⟨by simp [hlength], fun hchanged => ?_, ?_⟩
  · rw [any_cons, Bool.or_eq_false_iff] at hchanged
    rw [map_cons, hkept hchanged.1, hsame hchanged.2]
  · rw [forall_mem_cons]
    exact ⟨hdev, hdevs⟩

theorem checkCounts_mem {missing : Name → String} {repeated : Name → ℕ → String}
    {found names : List Name} (h : checkCounts missing repeated found names = .ok ()) :
    names ⊆ found := by
  induction names with
  | nil => exact nil_subset _
  | cons name names ih =>
  obtain ⟨⟨⟩, hmissing, h⟩ := bind_eq_ok.1 h
  obtain ⟨⟨⟩, h⟩ := rest_ok h
  rw [refuse_eq_ok] at hmissing
  exact cons_subset.2 ⟨count_pos_iff.1 (Nat.pos_of_ne_zero hmissing), ih h⟩

/-- There are as many objects as names and each name is matched, so every object is. -/
theorem all_matched {names : List Name} (hnodup : names.Nodup) (hlength : rs.length = names.length)
    (hall : names ⊆ rs.filterMap (·.matched)) : ∀ r ∈ rs, r.matched ≠ none := by
  have hle : names.length ≤ (rs.filterMap (·.matched)).length := (hnodup.subperm hall).length_le
  intro r hr hnone
  have hlt : (rs.filterMap (·.matched)).length < rs.length := by
    refine lt_of_le_of_ne (length_filterMap_le _ _) fun heq => ?_
    exact nomatch hnone ▸ filterMap_length_eq_length.1 heq r hr
  omega

def storageObjects : SaveFile → List Json
  | .json value => (value.getArray "storage_objects").getD []
  | _ => []

theorem arrayOf_eq_ok {items : List Json} (h : arrayOf key j = .ok items) :
    j.getArray key = some items := by
  unfold arrayOf at h
  cases hj : j.getArray key with
  | none =>
    rw [hj] at h
    cases h
  | some items' =>
    rw [hj] at h
    cases h
    rfl

theorem patchSaveconfigValue_dev {j' : Json} {changed : Bool}
    (h : patchSaveconfigValue j backstores targets = .ok (j', changed)) :
    ∀ object ∈ storageObjects (.json (if changed then j' else j)),
      object.getStr "dev" = backstores.lookup (objectName object) := by
  obtain ⟨objects, hobjects, h⟩ := bind_eq_ok.1 h
  obtain ⟨rs, hrs, h⟩ := bind_eq_ok.1 h
  obtain ⟨⟨⟩, hlength, h⟩ := bind_eq_ok.1 h
  obtain ⟨⟨⟩, hcounts, h⟩ := bind_eq_ok.1 h
  obtain ⟨_, h⟩ := rest_ok h
  obtain ⟨_, h⟩ := rest_ok h
  obtain ⟨⟨⟩, h⟩ := rest_ok h
  cases h
  rw [refuse_eq_ok, not_not] at hlength
  obtain ⟨hlen, hsame, hdevs⟩ := patchObjects_spec hrs
  have hmatched := all_matched backstores.keys_nodup (hlen.trans hlength) (checkCounts_mem hcounts)
  have hold := arrayOf_eq_ok hobjects
  have hfile : storageObjects (.json (if rs.any (·.changed) then
      j.set "storage_objects" (.arr (rs.map (·.object))) else j)) = rs.map (·.object) := by
    split_ifs with hchanged
    · rw [storageObjects, Json.getArray, Json.get_set (Json.get_ne_none hold)]
      rfl
    · rw [storageObjects, hold, hsame (Bool.eq_false_iff.2 hchanged)]
      rfl
  rw [hfile]
  intro object hobject
  obtain ⟨r, hr, rfl⟩ := mem_map.1 hobject
  obtain ⟨name, hname⟩ := Option.ne_none_iff_exists'.1 (hmatched r hr)
  obtain ⟨hobj, hdev⟩ := hdevs r hr name hname
  rw [hobj, hdev]

theorem patchSaveconfig_dev {env : Env} {file : SaveFile}
    (h : (patchSaveconfig env backstores targets file).2.isOk) :
    ∀ object ∈ storageObjects (patchSaveconfig env backstores targets file).1,
      object.getStr "dev" = backstores.lookup (objectName object) := by
  cases file with
  | missing | unreadable e => nomatch h
  | json value =>
  unfold patchSaveconfig at h ⊢
  cases hvalue : patchSaveconfigValue value backstores targets with
  | error e =>
    simp only [hvalue] at h
    exact nomatch h
  | ok patched =>
  obtain ⟨value', changed⟩ := patched
  have hdev := patchSaveconfigValue_dev hvalue
  simp only [hvalue] at h ⊢
  cases changed with
  | false => exact hdev
  | true =>
  cases hwrite : env.write with
  | some left =>
    simp only [hwrite] at h
    exact nomatch h
  | none => exact hdev

end

/-! ## The state left behind -/

def LunFollows (m : BlockDeviceMappings) (l l' : Lun) : Prop :=
  l'.lunId = l.lunId ∧ l'.backstoreName = l.backstoreName ∧
    (lunBacking l).Follows m (lunBacking l')

def TargetFollows (m : BlockDeviceMappings) (t t' : IscsiTarget) : Prop :=
  t'.id = t.id ∧ t'.iqn = t.iqn ∧ List.Forall₂ (LunFollows m) t.luns t'.luns

def NamespaceFollows (m : BlockDeviceMappings) (ns ns' : Namespace) : Prop :=
  ns'.nsid = ns.nsid ∧ (namespaceBacking ns).Follows m (namespaceBacking ns')

def SubsystemFollows (m : BlockDeviceMappings) (s s' : NvmeofSubsystem) : Prop :=
  s'.id = s.id ∧ s'.nqn = s.nqn ∧ List.Forall₂ (NamespaceFollows m) s.namespaces s'.namespaces

section Result

variable {m : BlockDeviceMappings} {env : Env} (t : IscsiTarget)

theorem LunFollows.refl (l : Lun) : LunFollows m l l := ⟨rfl, rfl, .inl rfl⟩

theorem NamespaceFollows.refl (ns : Namespace) : NamespaceFollows m ns ns := ⟨rfl, .inl rfl⟩

theorem TargetFollows.refl : TargetFollows m t t :=
  ⟨rfl, rfl, forall₂_same.2 fun l _ => .refl l⟩

theorem SubsystemFollows.refl (s : NvmeofSubsystem) : SubsystemFollows m s s :=
  ⟨rfl, rfl, forall₂_same.2 fun ns _ => .refl ns⟩

theorem remapTarget_follows : TargetFollows m t (remapTarget m t).item := by
  refine ⟨rfl, rfl, remapAll_follows (fun l => ⟨?_, ?_, remap_follows m l⟩) t.luns⟩
  · unfold remap
    split_ifs <;> rfl
  · unfold remap
    split_ifs <;> rfl

theorem remapSubsystem_follows (s : NvmeofSubsystem) :
    SubsystemFollows m s (remapSubsystem m s).item := by
  refine ⟨rfl, rfl, remapAll_follows (fun ns => ⟨?_, remap_follows m ns⟩) s.namespaces⟩
  unfold remap
  split_ifs <;> rfl

/-- What is stored after a pass; `ok` says whether it could be. -/
def stored {α : Type} (r : α → Remapped α) (ok : α → Bool) (a : α) : α :=
  if (r a).changed && ok a then (r a).item else a

section Stored

variable {α : Type} {r : α → Remapped α} {ok : α → Bool} {a : α}

theorem stored_of_ok (hr : (r a).changed = false → (r a).item = a)
    (hok : !(r a).changed || ok a) : stored r ok a = (r a).item := by
  unfold stored
  cases hc : (r a).changed with
  | false => exact (hr hc).symm
  | true =>
    rw [hc] at hok
    exact if_pos hok

theorem stored_rel {R : α → α → Prop} (hsame : R a a) (hr : R a (r a).item) :
    R a (stored r ok a) := by
  unfold stored
  split_ifs
  · exact hr
  · exact hsame

theorem map_stored {items : List α} (h : ∀ a ∈ items, (r a).changed = false) :
    items.map (stored r ok) = items :=
  (map_congr_left fun a ha => by simp [stored, h a ha]).trans (map_id _)

end Stored

def storedTarget (env : Env) (m : BlockDeviceMappings) : IscsiTarget → IscsiTarget :=
  stored (fun t => (remapTarget m t).toRemapped) (isPersisted env m)

theorem remapLoop_items (d : StateDir IscsiTarget) (patches : Patches) (safe changed : Bool) :
    (d.items.foldl (remapStep env m) ⟨d, patches, safe, changed⟩).files.items =
      d.items.map (storedTarget env m) := by
  rw [remapLoop_files]
  exact StateDir.foldl_save (f := fun t => (remapTarget m t).item) (fun _ => rfl) d

theorem iscsi_follows (w : IscsiState) : List.Forall₂ (TargetFollows m) w.targets.items
    (remapDevicePaths env m w).2.targets.items := by
  have hsame : List.Forall₂ (TargetFollows m) w.targets.items w.targets.items :=
    forall₂_same.2 fun t _ => .refl t
  unfold remapDevicePaths
  split_ifs
  · exact hsame
  · exact hsame
  · rw [remapLoop_items, forall₂_map_right_iff, forall₂_same]
    exact fun t _ => stored_rel (.refl t) (remapTarget_follows t)

theorem iscsi_safe {w : IscsiState} (h : (remapDevicePaths env m w).1.safeToRestore) :
    ∀ t ∈ (remapDevicePaths env m w).2.targets.items, ∀ l ∈ t.luns, isManagedLun l →
      (lunBacking l).Resolved m ∧ ∀ object ∈ storageObjects (remapDevicePaths env m w).2.saveconfig,
        objectName object = l.backstoreName → object.getStr "dev" = some l.backstorePath := by
  unfold remapDevicePaths at h ⊢
  by_cases hload : env.load.isSome
  · rw [if_pos hload] at h
    cases h
  simp only [if_neg hload] at h ⊢
  by_cases hempty : w.targets.items = []
  · intro t ht
    simp only [if_pos hempty] at ht
    rw [hempty] at ht
    cases ht
  simp only [if_neg hempty] at h ⊢
  obtain ⟨hsafe, hpatched⟩ := Bool.and_eq_true_iff.1 h
  obtain ⟨-, hall⟩ := remapLoop_safe hsafe
  rw [remapLoop_items]
  intro t' ht' l hl hmanaged
  obtain ⟨t, ht, rfl⟩ := mem_map.1 ht'
  obtain ⟨hpersisted, htarget, hlookup⟩ := hall t ht
  rw [storedTarget, stored_of_ok remapTarget_unchanged (by simp [hpersisted])] at hl
  refine ⟨?_, fun object hobject hname => ?_⟩
  · exact remapAll_resolved htarget hl hmanaged
  · rw [patchSaveconfig_dev hpatched object hobject, hname]
    exact hlookup l hl

namespace Nvmeof

def storedSubsystem (env : Env) (m : BlockDeviceMappings) : NvmeofSubsystem → NvmeofSubsystem :=
  stored (remapSubsystem m) fun s => (env.save s.id).isNone

variable {items : List NvmeofSubsystem} {p : Progress}

theorem remapLoop_files : (items.foldl (remapStep env m) p).files =
      items.foldl (fun d s => if (remapSubsystem m s).changed && (env.save s.id).isNone then
        d.save (remapSubsystem m s).item else d) p.files := by
  induction items generalizing p with
  | nil => rfl
  | cons s items ih => exact ih

theorem remapLoop_items (d : StateDir NvmeofSubsystem) (safe changed : Bool) :
    (d.items.foldl (remapStep env m) ⟨d, safe, changed⟩).files.items =
      d.items.map (storedSubsystem env m) := by
  rw [remapLoop_files]
  exact StateDir.foldl_save (f := fun s => (remapSubsystem m s).item) (fun _ => rfl) d

theorem remapLoop_safe (h : (items.foldl (remapStep env m) p).safe) : p.safe ∧ ∀ s ∈ items,
      (remapSubsystem m s).safe ∧ storedSubsystem env m s = (remapSubsystem m s).item := by
  induction items generalizing p with
  | nil => exact ⟨h, nofun⟩
  | cons s items ih =>
  obtain ⟨hstep, hrest⟩ := ih h
  simp only [remapStep, Bool.and_eq_true] at hstep
  obtain ⟨⟨hp, hsafe⟩, hsaved⟩ := hstep
  rw [forall_mem_cons]
  exact ⟨hp, ⟨hsafe, stored_of_ok remapSubsystem_unchanged hsaved⟩, hrest⟩

theorem nvmeof_follows (prefixes : Prefixes) (live : Live) (files : StateDir NvmeofSubsystem) :
    List.Forall₂ (SubsystemFollows m) files.items
      (remapDevicePaths env prefixes live m files).2.items := by
  unfold remapDevicePaths
  split_ifs
  · exact forall₂_same.2 fun s _ => .refl s
  rw [remapLoop_items, forall₂_map_right_iff, forall₂_same]
  exact fun s _ => stored_rel (.refl s) (remapSubsystem_follows s)

theorem nvmeof_safe {prefixes : Prefixes} {live : Live} {files : StateDir NvmeofSubsystem}
    (h : (remapDevicePaths env prefixes live m files).1.safeToRestore) :
    ∀ s ∈ (remapDevicePaths env prefixes live m files).2.items, ∀ ns ∈ s.namespaces,
      isManagedNamespace ns → (namespaceBacking ns).Resolved m := by
  unfold remapDevicePaths at h ⊢
  by_cases hload : env.load.isSome
  · rw [if_pos hload] at h
    cases h
  simp only [if_neg hload] at h ⊢
  obtain ⟨-, hall⟩ := remapLoop_safe h
  rw [remapLoop_items]
  intro s' hs' ns hns hmanaged
  obtain ⟨s, hs, rfl⟩ := mem_map.1 hs'
  obtain ⟨hsafe, hstored⟩ := hall s hs
  rw [hstored] at hns
  exact remapAll_resolved hsafe hns hmanaged

end Nvmeof

end Result

/-- **Safe to restore.** No identity is replaced, and if the remapping says so, everything managed
is on the device of its identity. -/
theorem remap_safe (env env' : Env) (m : BlockDeviceMappings) (w : IscsiState)
    (prefixes : Nvmeof.Prefixes) (live : Nvmeof.Live) (files : StateDir NvmeofSubsystem) :
    let iscsi := remapDevicePaths env m w
    let nvmeof := Nvmeof.remapDevicePaths env' prefixes live m files
    (iscsi.1.safeToRestore → ∀ t ∈ iscsi.2.targets.items, ∀ l ∈ t.luns, isManagedLun l →
      ∃ id, l.backingVolume = some id ∧ m.current.lookup id = some l.backstorePath ∧
        ∀ object ∈ storageObjects iscsi.2.saveconfig, objectName object = l.backstoreName →
          object.getStr "dev" = some l.backstorePath) ∧
    (nvmeof.1.safeToRestore → ∀ s ∈ nvmeof.2.items, ∀ ns ∈ s.namespaces, isManagedNamespace ns →
      ∃ id, ns.backingVolume = some id ∧ m.current.lookup id = some ns.devicePath) ∧
    List.Forall₂ (TargetFollows m) w.targets.items iscsi.2.targets.items ∧
    List.Forall₂ (SubsystemFollows m) files.items nvmeof.2.items := by
  refine ⟨fun hsafe t ht l hl hmanaged => ?_, Nvmeof.nvmeof_safe, iscsi_follows w,
    Nvmeof.nvmeof_follows prefixes live files⟩
  obtain ⟨⟨id, hid, hdevice⟩, hobjects⟩ := iscsi_safe hsafe t ht l hl hmanaged
  exact ⟨id, hid, hdevice, hobjects⟩

def movedState : IscsiState where
  targets := ⟨[⟨['1'], "iqn:a".toList, [⟨0, "/dev/loop0".toList, "nasty_a_lun0".toList, .block, none,
    some ⟨['u'], 7⟩, false⟩]⟩], by decide⟩
  saveconfig := .json (.obj [
    ("storage_objects".toList, .arr [.obj [("name".toList, .str "nasty_a_lun0".toList),
      ("dev".toList, .str "/dev/loop0".toList)]]),
    ("targets".toList, .arr [.obj [("wwn".toList, .str "iqn:a".toList)]])])

def movedMappings : BlockDeviceMappings := ⟨[(⟨['u'], 7⟩, "/dev/loop3".toList)], []⟩

theorem remap_safe_moved : let r := remapDevicePaths ⟨none, fun _ => none, none⟩ movedMappings movedState
    r.1 = ⟨true, true⟩ ∧ ∀ t ∈ r.2.targets.items, ∀ l ∈ t.luns, isManagedLun l →
      ∃ id, l.backingVolume = some id ∧ movedMappings.current.lookup id = some l.backstorePath ∧
        ∀ object ∈ storageObjects r.2.saveconfig, objectName object = l.backstoreName →
          object.getStr "dev" = some l.backstorePath := by
  have hsafe : (remapDevicePaths ⟨none, fun _ => none, none⟩ movedMappings movedState).1 =
      ⟨true, true⟩ := by decide +kernel
  refine ⟨hsafe, (remap_safe _ ⟨none, fun _ => none, none⟩ _ _ ⟨.ok [], none⟩ ⟨none, []⟩
    ⟨[], .nil⟩).1 ?_⟩
  rw [hsafe]

/-! ## A second pass -/

theorem Backing.remap_again (m : BlockDeviceMappings) (b : Backing) :
    ((b.remap m).item.remap m).changed = false := by
  rcases hr : b.resolve m with _ | ⟨identity, device⟩
  · have hagain : Backing.resolve m { b with unresolved := true } = none := hr
    simp [remap, hr, hagain]
  · have hagain : Backing.resolve m ⟨some identity, device, false⟩ = some (identity, device) := by
      simp [resolve, (resolve_eq_some hr).2]
    simp [remap, hr, hagain]

theorem remapAll_again [Backed α] (m : BlockDeviceMappings) (items : List α) :
    (remapAll m (remapAll m items).item).changed = false := by
  have hitem (a : α) : (remap m (remap m a).item).changed = false := by
    unfold remap
    split_ifs
    · simp only [backing_with]
      exact Backing.remap_again m (backing a)
    · rfl
    · rfl
  simp [remapAll, hitem]

theorem settled_of_stored {r : α → Remapped α} {ok : α → Bool} {items : List α}
    (hagain : ∀ a, (r (r a).item).changed = false) (hok : ∀ a, ok a) :
    ∀ a ∈ items.map (stored r ok), (r a).changed = false := by
  intro a ha
  obtain ⟨a, -, rfl⟩ := mem_map.1 ha
  by_cases hchanged : (r a).changed
  · simpa [stored, hchanged, hok] using hagain a
  · simp [stored, hchanged]

/-- **A second pass finds nothing to do,** where the first could store what it found, whatever
fails and whatever the save file is. -/
theorem remap_settles (m : BlockDeviceMappings) {env : Env} (env' : Env) (w : IscsiState)
    (files : StateDir NvmeofSubsystem) (prefixes prefixes' : Nvmeof.Prefixes)
    (live live' : Nvmeof.Live) (hload : env.load = none) (hsave : ∀ id, env.save id = none) :
    let targets := (remapDevicePaths env m w).2.targets
    let nvmeof := (Nvmeof.remapDevicePaths env prefixes live m files).2
    (∀ saveconfig, (remapDevicePaths env' m ⟨targets, saveconfig⟩).1.changed = false ∧
      (remapDevicePaths env' m ⟨targets, saveconfig⟩).2.targets.items = targets.items) ∧
    (Nvmeof.remapDevicePaths env' prefixes' live' m nvmeof).1.changed = false ∧
      (Nvmeof.remapDevicePaths env' prefixes' live' m nvmeof).2.items = nvmeof.items := by
  intro targets nvmeof
  have htargets : ∀ t ∈ targets.items, (remapTarget m t).changed = false := by
    intro t ht
    simp only [targets, remapDevicePaths, hload, Option.isSome_none, Bool.false_eq_true, if_false]
      at ht
    split_ifs at ht with hnone
    · simp [hnone] at ht
    · rw [remapLoop_items] at ht
      exact settled_of_stored (r := fun t => (remapTarget m t).toRemapped)
        (fun t => remapAll_again m t.luns) (by simp [isPersisted, hsave]) t ht
  have hsubsystems : ∀ s ∈ nvmeof.items, (remapSubsystem m s).changed = false := by
    intro s hs
    simp only [nvmeof, Nvmeof.remapDevicePaths, hload, Option.isSome_none, Bool.false_eq_true,
      if_false, Nvmeof.remapLoop_items] at hs
    exact settled_of_stored (fun s => remapAll_again m s.namespaces) (by simp [hsave]) s hs
  constructor
  · intro saveconfig
    unfold remapDevicePaths
    split_ifs
    · exact ⟨rfl, rfl⟩
    · exact ⟨rfl, rfl⟩
    · refine ⟨foldlRecOn (motive := (Progress.changed · = false)) _ _ rfl fun p hp t ht => ?_, ?_⟩
      · simp [remapStep, hp, htargets t ht]
      · exact (remapLoop_items targets ..).trans (map_stored htargets)
  · unfold Nvmeof.remapDevicePaths
    split_ifs
    · exact ⟨rfl, rfl⟩
    · refine ⟨foldlRecOn (motive := (Nvmeof.Progress.changed · = false)) _ _ rfl fun p hp s hs => ?_,
        ?_⟩
      · simp [Nvmeof.remapStep, hp, hsubsystems s hs]
      · exact (Nvmeof.remapLoop_items nvmeof ..).trans (map_stored hsubsystems)

theorem remap_settles_moved :
    let targets := (remapDevicePaths ⟨none, fun _ => none, none⟩ movedMappings movedState).2.targets
    (remapDevicePaths ⟨none, fun _ => some "read-only", none⟩ movedMappings
      ⟨targets, .missing⟩).1.changed = false :=
  ((remap_settles movedMappings _ movedState ⟨[], .nil⟩ ⟨.ok [], none⟩ ⟨.ok [], none⟩ ⟨none, []⟩
    ⟨none, []⟩ rfl fun _ => rfl).1 .missing).1

end Remap

end Nasty.Sharing
