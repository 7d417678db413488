import Mathlib.Algebra.BigOperators.Group.List.Basic
import Mathlib.Data.List.Sigma
import Nasty.Lib.Checks

/-!
# The drives of a virtual machine

A disk on an IDE controller leaves its slot to QEMU, a CD-ROM asks for the slot of its own position,
a virtio disk gets a `-device`, and a SCSI disk gets nothing. An argument is given by the options
that QEMU reads in it: no value that passes `validateQemuDriveValue` has a comma, so none adds an
option. `drives_attached_iff` says when each drive has one guest device and no slot is asked for
twice.
-/

namespace Nasty.Vm

open List

/-! ## The configuration -/

structure VmDisk where
  path : String
  interface : String := "virtio"
  readonly : Bool := false
  cache : Option String := none
  aio : Option String := none
  discard : Option String := none
  iopsRd : Option ℕ := none
  iopsWr : Option ℕ := none

def validateQemuDriveValue (field value : String) : Except String Unit :=
  .refuse (value.toList.any (· ∈ [',', '\n', '\r', '\x00']))
    (field ++ " contains characters that alter QEMU drive options")

def validateVmDisk (disk : VmDisk) : Except String Unit := do
  validateQemuDriveValue "disk path" disk.path
  .refuse (disk.interface ∉ ["", "virtio", "scsi", "ide"])
    ("unsupported disk interface '" ++ disk.interface ++ "'")
  .refuse (disk.cache.any (· ∉ ["writeback", "writethrough", "none", "unsafe"]))
    "unsupported cache mode"
  .refuse (disk.aio.any (· ∉ ["threads", "native"])) "unsupported I/O mode"
  .refuse (disk.discard.any (· ∉ ["unmap", "ignore"])) "unsupported discard mode"

/-- The ids `drive0` and `cd0`, and those of the operator. -/
inductive DriveId
  | drive (i : ℕ)
  | cd (i : ℕ)
  | named (id : String)
  deriving DecidableEq

abbrev Options := List (String × String)

structure Drive where
  file : String
  iface : String
  index : Option ℕ := none
  id : Option DriveId := none
  options : Options

inductive Arg
  | drive (drive : Drive)
  | device (driver : String) (drive : Option DriveId) (options : Options)

/-- Without the settings that concern no drive and no device. -/
structure VmConfig where
  id : String
  disks : List VmDisk
  /-- The MAC addresses of the network interfaces. -/
  networks : List (Option String) := []
  /-- The addresses of the PCI devices. -/
  passthroughDevices : List String := []
  /-- The vendors and products of the USB devices. -/
  usbDevices : List (String × String) := []
  cdroms : List String
  uefi : Bool := true
  /-- What the operator adds, as QEMU reads it. -/
  extraArgs : List Arg := []

/-! ## The command line -/

def diskOptions (disk : VmDisk) : Options :=
  let limit (key : String) (value : Option ℕ) : Options :=
    (value.filter (0 < ·)).toList.map fun v => (key, toString v)
  (if disk.readonly then [("readonly", "on")] else []) ++ disk.cache.toList.map ("cache", ·) ++
    disk.aio.toList.map ("aio", ·) ++ disk.discard.toList.map ("discard", ·) ++
    limit "throttling.iops-read" disk.iopsRd ++ limit "throttling.iops-write" disk.iopsWr

def diskArgs (disk : VmDisk) (i : ℕ) : List Arg :=
  .drive {
    file := disk.path
    -- Meant for `-device scsi-hd` and `-device virtio-blk-pci`; only the second is written.
    iface := if disk.interface = "ide" then "ide" else "none"
    id := some (.drive i)
    options := ("format", "raw") :: diskOptions disk } ::
  if disk.interface = "virtio" ∨ disk.interface = "" then
    [.device "virtio-blk-pci" (some (.drive i)) []]
  else []

def cdromArgs (iso : String) (i : ℕ) : List Arg :=
  [.drive ⟨iso, "ide", some i, some (.cd i), [("media", "cdrom"), ("readonly", "on")]⟩]

def firmwareArgs (config : VmConfig) : List Arg :=
  if config.uefi then
    [.drive ⟨"/etc/nasty/ovmf/OVMF_CODE.fd", "pflash", none, none,
       [("format", "raw"), ("readonly", "on")]⟩,
     .drive ⟨"/var/lib/nasty/vms/" ++ config.id ++ ".ovmf_vars.fd", "pflash", none, none,
       [("format", "raw")]⟩]
  else []

def devices (config : VmConfig) : List (String × Options) :=
  config.networks.mapIdx (fun i mac =>
    ("virtio-net-pci", ("netdev", s!"net{i}") :: mac.toList.map ("mac", ·))) ++
  config.passthroughDevices.map (fun address => ("vfio-pci", [("host", address)])) ++
  if config.usbDevices = [] then [] else ("qemu-xhci", [("id", "xhci")]) ::
    config.usbDevices.map fun dev => ("usb-host",
      [("bus", "xhci.0"), ("vendorid", "0x" ++ dev.1), ("productid", "0x" ++ dev.2)])

def buildQemuArgs (config : VmConfig) : List Arg :=
  firmwareArgs config ++ config.disks.zipIdx.flatMap (fun x => diskArgs x.1 x.2) ++
    config.cdroms.zipIdx.flatMap (fun x => cdromArgs x.1 x.2) ++
    (devices config).map (fun x => .device x.1 none x.2) ++ config.extraArgs

/-! ## QEMU -/

def Arg.connects (id : DriveId) : Arg → Bool
  | .drive d => d.iface = "ide" ∧ d.id = some id
  | .device _ connected _ => connected = some id

def connections (id : DriveId) (args : List Arg) : ℕ := args.countP (·.connects id)

def lowestFree (taken : List ℕ) : ℕ := ((range (taken.length + 1)).find? (· ∉ taken)).getD 0

/-- The IDE slots after an argument is parsed, unless it asks for one that is taken. -/
def Arg.takeSlot (taken : List ℕ) : Arg → Option (List ℕ)
  | .drive ⟨_, "ide", none, _, _⟩ => some (taken ++ [lowestFree taken])
  | .drive ⟨_, "ide", some i, _, _⟩ => if i ∈ taken then none else some (taken ++ [i])
  | _ => some taken

def takeSlots : List ℕ → List Arg → Option (List ℕ) := foldlM Arg.takeSlot

inductive Source
  | disk (disk : VmDisk) (i : ℕ)
  | cdrom (iso : String) (i : ℕ)

def Source.id : Source → DriveId
  | .disk _ i => .drive i
  | .cdrom _ i => .cd i

def Source.file : Source → String
  | .disk d _ => d.path
  | .cdrom iso _ => iso

def Source.args : Source → List Arg
  | .disk d i => diskArgs d i
  | .cdrom iso i => cdromArgs iso i

def VmConfig.sources (config : VmConfig) : List Source :=
  config.disks.zipIdx.map (fun x => .disk x.1 x.2) ++
    config.cdroms.zipIdx.map fun x => .cdrom x.1 x.2

/-- Every disk and every CD-ROM is a drive with one guest device, and no IDE slot is asked for
twice. -/
structure Attached (config : VmConfig) (args : List Arg) : Prop where
  drives : ∀ x ∈ config.sources, connections x.id args = 1 ∧
    ∃ d, .drive d ∈ args ∧ d.id = some x.id ∧ d.file = x.file
  slots : (takeSlots [] args).isSome

/-- The guest devices that come without extra arguments: a SCSI disk has none. -/
def Source.own : Source → ℕ
  | .disk d _ => if d.interface ∈ ["", "virtio", "ide"] then 1 else 0
  | .cdrom .. => 1

def VmConfig.ideDisks (config : VmConfig) : ℕ := config.disks.countP (·.interface = "ide")

/-- Extra arguments connect the SCSI disks and no other drive, and IDE disks and CD-ROMs do not
meet. -/
structure Fits (config : VmConfig) : Prop where
  drives : ∀ x ∈ config.sources, x.own + connections x.id config.extraArgs = 1
  ide : config.ideDisks = 0 ∨ config.cdroms = []
  slots : (takeSlots (range (config.ideDisks + config.cdroms.length)) config.extraArgs).isSome

/-! ## IDE slots -/

section

variable {args args' : List Arg} {taken : List ℕ}

theorem takeSlots_append :
    takeSlots taken (args ++ args') = (takeSlots taken args).bind (takeSlots · args') :=
  foldlM_append

theorem lowestFree_range (n : ℕ) : lowestFree (range n) = n := by
  have hnone : (range n).find? (· ∉ range n) = none := by simp
  rw [lowestFree, length_range, range_succ, find?_append, hnone]
  simp

theorem takeSlots_disks (disks : List VmDisk) (k n : ℕ) :
    takeSlots (range n) ((disks.zipIdx k).flatMap fun x => diskArgs x.1 x.2) =
      some (range (n + disks.countP (·.interface = "ide"))) := by
  induction disks generalizing k n with
  | nil => rfl
  | cons disk disks ih =>
    have hdisk : takeSlots (range n) (diskArgs disk k) =
        some (range (n + if disk.interface = "ide" then 1 else 0)) := by
      rw [diskArgs, takeSlots, foldlM_cons]
      by_cases hide : disk.interface = "ide"
      · simp [hide, Arg.takeSlot, lowestFree_range, range_succ]
      · split_ifs <;> simp [Arg.takeSlot]
    rw [zipIdx_cons, flatMap_cons, takeSlots_append, hdisk, Option.bind_some, ih, countP_cons]
    simp [Nat.add_assoc, Nat.add_comm]

theorem takeSlots_cdroms (isos : List String) (k : ℕ) :
    takeSlots (range k) ((isos.zipIdx k).flatMap fun x => cdromArgs x.1 x.2) =
      some (range (k + isos.length)) := by
  induction isos generalizing k with
  | nil => rfl
  | cons iso isos ih =>
    have hiso : takeSlots (range k) (cdromArgs iso k) = some (range (k + 1)) := by
      simp [takeSlots, cdromArgs, Arg.takeSlot, range_succ]
    rw [zipIdx_cons, flatMap_cons, takeSlots_append, hiso, Option.bind_some, ih, length_cons,
      Nat.succ_add_eq_add_succ]

theorem takeSlots_devices (devices : List (String × Options)) :
    takeSlots taken (devices.map fun x => .device x.1 none x.2) = some taken := by
  induction devices with
  | nil => rfl
  | cons x devices ih => exact ih

theorem slots_iff (config : VmConfig) : (takeSlots [] (buildQemuArgs config)).isSome ↔
    (config.ideDisks = 0 ∨ config.cdroms = []) ∧
      (takeSlots (range (config.ideDisks + config.cdroms.length)) config.extraArgs).isSome := by
  have hfirmware : takeSlots [] (firmwareArgs config) = some (range 0) := by
    unfold firmwareArgs
    split_ifs <;> rfl
  have hdisks : takeSlots (range 0) (config.disks.zipIdx.flatMap fun x => diskArgs x.1 x.2) =
      some (range config.ideDisks) := by
    rw [takeSlots_disks, Nat.zero_add, VmConfig.ideDisks]
  have hcdroms := takeSlots_cdroms config.cdroms 0
  simp only [buildQemuArgs, takeSlots_append, hfirmware, hdisks, Option.bind_some,
    takeSlots_devices, Option.bind_fun_some]
  rcases config.ideDisks with _ | n
  · rw [hcdroms]
    simp
  rcases config.cdroms with _ | ⟨iso, isos⟩
  · simp [takeSlots]
  · simp [zipIdx_cons, takeSlots, cdromArgs, Arg.takeSlot]

end

/-! ## Guest devices -/

section

variable {config : VmConfig} {x y : Source}

theorem build_eq (config : VmConfig) : buildQemuArgs config = firmwareArgs config ++
    config.sources.flatMap Source.args ++ (devices config).map (fun x => .device x.1 none x.2) ++
    config.extraArgs := by
  simp [buildQemuArgs, VmConfig.sources, flatMap_append, flatMap_map, Source.args]

theorem connections_append {id : DriveId} {args args' : List Arg} :
    connections id (args ++ args') = connections id args + connections id args' := countP_append

theorem connections_args (id : DriveId) (x : Source) :
    connections id x.args = if x.id = id then x.own else 0 := by
  cases x with
  | cdrom iso i =>
    by_cases hid : DriveId.cd i = id <;>
      simp [connections, Source.args, cdromArgs, Arg.connects, Source.id, Source.own, hid]
  | disk d i =>
    rw [connections, Source.args, diskArgs, Source.id, Source.own]
    by_cases hide : d.interface = "ide"
    · simp [hide, Arg.connects, countP_cons]
    · simp [hide, Arg.connects, or_comm]
      split_ifs <;> simp_all

theorem nodup_ids (config : VmConfig) : (config.sources.map Source.id).Nodup := by
  have hdisks := (nodup_zipIdx_map_snd config.disks).map (f := DriveId.drive) fun _ _ => by simp
  have hcdroms := (nodup_zipIdx_map_snd config.cdroms).map (f := DriveId.cd) fun _ _ => by simp
  rw [map_map] at hdisks hcdroms
  rw [VmConfig.sources, map_append, map_map, map_map]
  refine nodup_append.2 ⟨hdisks, hcdroms, ?_⟩
  rintro _ hdisk _ hcdrom rfl
  obtain ⟨x, -, rfl⟩ := mem_map.1 hdisk
  obtain ⟨y, -, heq⟩ := mem_map.1 hcdrom
  cases heq

theorem connections_source (hx : x ∈ config.sources) :
    connections x.id (buildQemuArgs config) = x.own + connections x.id config.extraArgs := by
  classical
  have hfirmware : connections x.id (firmwareArgs config) = 0 := by
    unfold firmwareArgs
    split_ifs <;> simp [connections, Arg.connects]
  have hdevices : connections x.id ((devices config).map fun x => .device x.1 none x.2) = 0 := by
    simp [connections, Arg.connects]
  have hsources : connections x.id (config.sources.flatMap Source.args) = x.own := by
    have hnodup := nodup_ids config
    have hcount : config.sources.count x = 1 := nodup_iff_count_eq_one.1 hnodup.of_map x hx
    rw [connections, countP_flatMap, sum_map_eq_nsmul_single x, hcount, one_nsmul]
    · exact (connections_args x.id x).trans (if_pos rfl)
    · intro y hne hy
      exact (connections_args x.id y).trans
        (if_neg fun h => hne (inj_on_of_nodup_map hnodup hy hx h))
  simp only [build_eq, connections_append, hfirmware, hsources, hdevices, Nat.zero_add,
    Nat.add_zero]

end

/-- **The drives of a machine.** Each has one device exactly if there is no SCSI disk and not an IDE
disk with a CD-ROM, or extra arguments make up for it. -/
theorem drives_attached_iff (config : VmConfig) :
    Attached config (buildQemuArgs config) ↔ Fits config := by
  have hdrive : ∀ x ∈ config.sources, ∃ d, .drive d ∈ buildQemuArgs config ∧ d.id = some x.id ∧
      d.file = x.file := by
    intro x hx
    have hargs : ∃ d, .drive d ∈ x.args ∧ d.id = some x.id ∧ d.file = x.file := by
      cases x <;> exact ⟨_, mem_cons_self, rfl, rfl⟩
    obtain ⟨d, hd, hx'⟩ := hargs
    have hmem : .drive d ∈ config.sources.flatMap Source.args := mem_flatMap_of_mem hx hd
    exact ⟨d, by simp [build_eq, hmem], hx'⟩
  constructor
  · rintro ⟨hdrives, hslots⟩
    obtain ⟨hide, hextra⟩ := (slots_iff config).1 hslots
    exact ⟨fun x hx => connections_source hx ▸ (hdrives x hx).1, hide, hextra⟩
  · rintro ⟨hdrives, hide, hslots⟩
    exact ⟨fun x hx => ⟨(connections_source hx).trans (hdrives x hx), hdrive x hx⟩,
      (slots_iff config).2 ⟨hide, hslots⟩⟩

def threeDrives : VmConfig where
  id := "5f3c"
  disks := [{ path := "/fs/tank/a.img", interface := "scsi" },
    { path := "/fs/tank/b.img", interface := "ide" }]
  cdroms := ["/fs/tank/setup.iso"]

/-- All three are accepted. The SCSI disk has no guest device, and the CD-ROM asks for the slot of
the other disk. -/
theorem drives_not_attached :
    ((threeDrives.disks.map validateVmDisk).all (·.isOk) ∧
      (threeDrives.cdroms.map (validateQemuDriveValue "CD-ROM path")).all (·.isOk)) ∧
    connections (.drive 0) (buildQemuArgs threeDrives) = 0 ∧
    takeSlots [] (buildQemuArgs threeDrives) = none ∧
    ¬ Attached threeDrives (buildQemuArgs threeDrives) :=
  ⟨by decide, by decide, by decide, fun h => absurd h.slots (by decide)⟩

end Nasty.Vm
