import Nasty.Subvolumes.Commands

/-!
# NVMe-oF subsystems

The NVMe-oF service keeps every subsystem in a state file and mirrors it in the kernel's configuration
tree: a directory for the subsystem, a directory for each listening port, and under the port a link
to every subsystem that is reachable there. Subsystems that listen on the same address share a port.
The state files survive a reboot and the tree does not, so `restore` builds it again.
-/

namespace Nasty.Sharing

open Proc
open Subvolumes (BlockVolumeId Name)

inductive NvmeofError
  | notFound (id : Name)
  | deviceNotFound (path : Name)
  | portNotFound (portId : ℕ)
  | configFs (text : String)
  | io (text : String)
  | invalidTransport (transport : Name)

def NvmeofError.message : NvmeofError → String
  | notFound id => "subsystem not found: " ++ .ofList id
  | deviceNotFound path => "device not found: " ++ .ofList path
  | portNotFound portId => "port not found: " ++ toString portId
  | configFs text => "configfs error: " ++ text
  | io text => "io error: " ++ text
  | invalidTransport transport =>
    "unsupported transport '" ++ .ofList transport ++ "' (expected \"tcp\" or \"rdma\")"

structure Namespace where
  nsid : ℕ
  devicePath : Name
  enabled : Bool
  backingVolume : Option BlockVolumeId
  backingVolumeUnresolved : Bool

structure Port where
  portId : ℕ
  transport : Name
  addr : Name
  serviceId : Name
  addrFamily : Name

structure NvmeofSubsystem where
  id : Name
  nqn : Name
  namespaces : List Namespace
  ports : List Port
  allowedHosts : List Name
  allowAnyHost : Bool

namespace Nvmeof

/-! ## Ports in the kernel -/

inductive Attr
  | trtype
  | traddr
  | trsvcid
  | adrfam
  deriving DecidableEq

def Attr.file : Attr → String
  | trtype => "addr_trtype"
  | traddr => "addr_traddr"
  | trsvcid => "addr_trsvcid"
  | adrfam => "addr_adrfam"

def Attr.all : List Attr := [trtype, traddr, trsvcid, adrfam]

abbrev Listen := Attr → Name

def listen (transport addr serviceId addrFamily : Name) : Listen
  | .trtype => transport
  | .traddr => addr
  | .trsvcid => serviceId
  | .adrfam => addrFamily

/-- A port directory. An attribute that was never written reads as a text that nobody asks for. -/
structure PortDir where
  attrs : Attr → Option Name
  links : List Name

def PortDir.empty : PortDir := ⟨fun _ => none, []⟩

def PortDir.isAt (d : PortDir) (l : Listen) : Bool :=
  Attr.all.all fun a => d.attrs a = some (l a)

/-! ## Commands -/

inductive Cmd
  | protocolEnabled
  | loadAll
  | load (id : Name)
  | save (s : NvmeofSubsystem)
  | remove (id : Name)
  | newId
  | nqnForSubsystem (name : Name)
  | ipRoute (v6 : Bool)
  | deviceExists (path : Name)
  | readPorts
  | mkdirPort (portId : ℕ)
  | writePort (portId : ℕ) (a : Attr) (value : Name)
  | rmdirPort (portId : ℕ)
  | portIsEmpty (portId : ℕ)
  | isLinked (portId : ℕ) (nqn : Name)
  | link (portId : ℕ) (nqn : Name)
  | unlink (portId : ℕ) (nqn : Name)
  | mkdirSubsystem (nqn : Name)
  | rmdirSubsystem (nqn : Name)
  /-- A change to a part of the tree that holds neither ports nor links. -/
  | other (what : String)

abbrev Cmd.Answer : Cmd → Type
  | protocolEnabled | deviceExists _ | portIsEmpty _ | isLinked .. => Bool
  | loadAll => Except String (List NvmeofSubsystem)
  | load _ => Option NvmeofSubsystem
  | newId => Name
  | nqnForSubsystem _ => Except NvmeofError Name
  | ipRoute _ => Option Name
  | readPorts => List (ℕ × PortDir)
  | save _ | remove _ | mkdirPort _ | writePort .. | rmdirPort _ | link .. | unlink ..
  | mkdirSubsystem _ | rmdirSubsystem _ | other _ => Except String Unit

abbrev Service := Proc Cmd Cmd.Answer NvmeofError

def run (c : Cmd) : Service c.Answer := perform c

def nvmetBase : String := "/sys/kernel/config/nvmet"

def portPath (portId : ℕ) : String := nvmetBase ++ "/ports/" ++ toString portId

def subsysPath (nqn : Name) : String := nvmetBase ++ "/subsystems/" ++ .ofList nqn

def linkPath (portId : ℕ) (nqn : Name) : String :=
  portPath portId ++ "/subsystems/" ++ .ofList nqn

def orConfigFs (what : String) : Except String Unit → Service Unit :=
  orFail fun e => .configFs (what ++ ": " ++ e)

def mkdirPort (portId : ℕ) : Service Unit := do
  orConfigFs ("mkdir " ++ portPath portId) (← run (.mkdirPort portId))

def writePort (portId : ℕ) (a : Attr) (value : Name) : Service Unit := do
  orConfigFs ("write " ++ portPath portId ++ "/" ++ a.file ++ "=" ++ .ofList value)
    (← run (.writePort portId a value))

def rmdirPort (portId : ℕ) : Service Unit := do
  orConfigFs ("rmdir " ++ portPath portId) (← run (.rmdirPort portId))

def symlink (portId : ℕ) (nqn : Name) : Service Unit := do
  orConfigFs ("symlink " ++ linkPath portId nqn ++ " -> " ++ subsysPath nqn)
    (← run (.link portId nqn))

def ensureSymlink (portId : ℕ) (nqn : Name) : Service Unit := do
  let linked ← run (.isLinked portId nqn)
  if linked then return else symlink portId nqn

def unlink (portId : ℕ) (nqn : Name) : Service Unit := do
  orConfigFs ("unlink " ++ linkPath portId nqn) (← run (.unlink portId nqn))

def mkdirSubsystem (nqn : Name) : Service Unit := do
  orConfigFs ("mkdir " ++ subsysPath nqn) (← run (.mkdirSubsystem nqn))

def rmdirSubsystem (nqn : Name) : Service Unit := do
  orConfigFs ("rmdir " ++ subsysPath nqn) (← run (.rmdirSubsystem nqn))

def other (what : String) : Service Unit := do
  orConfigFs what (← run (.other what))

def writeAllowAnyHost (nqn : Name) (allow : Bool) : Service Unit :=
  other ("write " ++ subsysPath nqn ++ "/attr_allow_any_host=" ++ if allow then "1" else "0")

def save (s : NvmeofSubsystem) : Service Unit := do orFail .io (← run (.save s))

def loadAllStrict : Service (List NvmeofSubsystem) := do orFail .io (← run .loadAll)

def load (id : Name) : Service NvmeofSubsystem := do
  match ← run (.load id) with
  | some s => return s
  | none => fail (.notFound id)

/-! ## Checks -/

def validateSubsystemName (name : Name) : Except NvmeofError Unit := do
  .refuse (name = []) (.configFs "NVMe-oF subsystem name is empty")
  .refuse (Text.utf8Len name > 200) (.configFs "NVMe-oF subsystem name exceeds 200 chars")
  .refuse (¬ name.all fun c => c.isAlphanum || c ∈ ['-', '.', '_', ':'])
    (.configFs ("NVMe-oF subsystem name '" ++ .ofList name ++
      "' contains invalid characters (allowed: A-Z, a-z, 0-9, '-', '.', '_', ':')"))

def validateHostNqn (nqn : Name) : Except NvmeofError Unit := do
  .refuse (nqn = []) (.configFs "host NQN is empty")
  .refuse (Text.utf8Len nqn > 223) (.configFs "host NQN exceeds 223 chars (NVMe spec limit)")
  .refuse (¬ "nqn.".toList.isPrefixOf nqn)
    (.configFs ("host NQN '" ++ .ofList nqn ++ "' must start with 'nqn.' (per NVMe spec)"))
  .refuse (nqn.any fun c => c = '/' || c = '\\' || Text.isControl c || c = ' ')
    (.configFs ("host NQN '" ++ .ofList nqn ++ "' contains invalid characters " ++
      "(must not contain '/', '\\', whitespace, or control characters)"))

def validateTransport (transport : Name) : Except NvmeofError Unit :=
  .refuse (transport ≠ "tcp".toList ∧ transport ≠ "rdma".toList) (.invalidTransport transport)

/-! ## Ports -/

def srcAddress (text : Name) : Option Name :=
  ((Text.splitWhitespace text).dropWhile (· ≠ "src".toList)).tail.head?

def detectPrimaryIp : Service (Option Name) := do return (← run (.ipRoute false)).bind srcAddress

def detectPrimaryIpv6 : Service (Option Name) := do return (← run (.ipRoute true)).bind srcAddress

def findExistingPort (l : Listen) : Service (Option ℕ) := do
  let dirs ← run .readPorts
  return (dirs.find? fun e => e.2.isAt l).map (·.1)

def nextPortId : Service ℕ := do
  let dirs ← run .readPorts
  return ((dirs.map (·.1)).max?.getD 0 + 1) % 65536

def configurePort (portId : ℕ) (l : Listen) : Service Unit :=
  each Attr.all fun a => writePort portId a (l a)

def openPort (portId : ℕ) (l : Listen) : Service Unit := do
  mkdirPort portId
  configurePort portId l

structure AddPortRequest where
  subsystemId : Name
  transport : Option Name
  addr : Option Name
  serviceId : Option UInt16
  addrFamily : Option Name

def anyAddr : Name := "0.0.0.0".toList

/-- The kernel takes no wildcard, so the primary address stands for it. -/
def listenAddr : Option Name → Service Name
  | some a => if a ≠ [] ∧ a ≠ anyAddr then return a else primary
  | none => primary
where
  primary : Service Name := do return (← detectPrimaryIp).getD anyAddr

def serviceText (serviceId : UInt16) : Name := Nat.toDigits 10 serviceId.toNat

/-- An id of a port that listens at `l`: one that does so already, or a new one. -/
def portFor (l : Listen) : Service ℕ := do
  match ← findExistingPort l with
  | some existing => return existing
  | none =>
    let pid ← nextPortId
    openPort pid l
    return pid

def addPort (req : AddPortRequest) : Service NvmeofSubsystem := do
  let subsys ← load req.subsystemId
  let transport := req.transport.getD "tcp".toList
  ofExcept (validateTransport transport)
  let addr ← listenAddr req.addr
  let serviceId := serviceText (req.serviceId.getD 4420)
  let addrFamily := req.addrFamily.getD "ipv4".toList
  let portId ← portFor (listen transport addr serviceId addrFamily)
  symlink portId subsys.nqn
  let subsys :=
    { subsys with ports := subsys.ports ++ [⟨portId, transport, addr, serviceId, addrFamily⟩] }
  save subsys
  return subsys

def removeIfEmpty (portId : ℕ) : Service Unit := do
  let isEmpty ← run (.portIsEmpty portId)
  onlyIf isEmpty (ignore (rmdirPort portId))

def removePort (subsystemId : Name) (portId : ℕ) : Service NvmeofSubsystem := do
  let subsys ← load subsystemId
  refuse (∀ p ∈ subsys.ports, p.portId ≠ portId) (.portNotFound portId)
  ignore (unlink portId subsys.nqn)
  removeIfEmpty portId
  let subsys := { subsys with ports := subsys.ports.eraseP (·.portId = portId) }
  save subsys
  return subsys

/-! ## Subsystems -/

def namespacePath (nqn : Name) (nsid : ℕ) : String :=
  subsysPath nqn ++ "/namespaces/" ++ toString nsid

def addNamespace (subsystemId devicePath : Name) (backingVolume : Option BlockVolumeId) :
    Service NvmeofSubsystem := do
  let found ← run (.deviceExists devicePath)
  refuse (found = false) (.deviceNotFound devicePath)
  let subsys ← load subsystemId
  let nsid := ((subsys.namespaces.map (·.nsid)).max?.map (· + 1)).getD 1
  let path := namespacePath subsys.nqn nsid
  other ("mkdir " ++ path)
  other ("write " ++ path ++ "/device_path=" ++ .ofList devicePath)
  other ("write " ++ path ++ "/buffered_io=0")
  other ("write " ++ path ++ "/enable=1")
  let subsys :=
    { subsys with namespaces := subsys.namespaces ++ [⟨nsid, devicePath, true, backingVolume, false⟩] }
  save subsys
  return subsys

def hostPath (hostNqn : Name) : String := nvmetBase ++ "/hosts/" ++ .ofList hostNqn

def hostLink (nqn hostNqn : Name) : String :=
  subsysPath nqn ++ "/allowed_hosts/" ++ .ofList hostNqn ++ " -> " ++ hostPath hostNqn

def addHost (subsystemId hostNqn : Name) : Service Unit := do
  ofExcept (validateHostNqn hostNqn)
  let subsys ← load subsystemId
  other ("mkdir " ++ hostPath hostNqn)
  other ("symlink " ++ hostLink subsys.nqn hostNqn)
  writeAllowAnyHost subsys.nqn false
  save { subsys with
    allowAnyHost := false
    allowedHosts := if hostNqn ∈ subsys.allowedHosts then subsys.allowedHosts
      else subsys.allowedHosts ++ [hostNqn] }

structure CreateSubsystemRequest where
  name : Name
  allowAnyHost : Option Bool
  devicePath : Option Name
  backingVolume : Option BlockVolumeId
  resolvedNqn : Option Name
  addr : Option Name
  port : Option UInt16
  allowedHosts : Option (List Name)

def CreateSubsystemRequest.addPort (req : CreateSubsystemRequest) (id : Name) : AddPortRequest :=
  ⟨id, some "tcp".toList, some (req.addr.getD anyAddr), some (req.port.getD 4420),
    some "ipv4".toList⟩

def CreateSubsystemRequest.addPortV6 (req : CreateSubsystemRequest) (id v6 : Name) :
    AddPortRequest :=
  ⟨id, some "tcp".toList, some v6, some (req.port.getD 4420), some "ipv6".toList⟩

def addSibling (req : CreateSubsystemRequest) (id : Name) : Service Unit := do
  match ← detectPrimaryIpv6 with
  | some v6 => ignore (addPort (req.addPortV6 id v6))
  | none => return

def resolveNqn (req : CreateSubsystemRequest) : Service Name :=
  match req.resolvedNqn with
  | some nqn => pure nqn
  | none => do orFail id (← run (.nqnForSubsystem req.name))

/-- The subsystem without its device. One of the same name is returned as it is. -/
def createEmpty (req : CreateSubsystemRequest) : Service (Option Name) := do
  ofExcept (validateSubsystemName req.name)
  each (req.allowedHosts.getD []) fun host => ofExcept (validateHostNqn host)
  let subsystems ← loadAllStrict
  let nqn ← resolveNqn req
  if ∃ s ∈ subsystems, s.nqn = nqn then return none
  let allowAny := req.allowAnyHost.getD true
  mkdirSubsystem nqn
  writeAllowAnyHost nqn allowAny
  let subsystemId ← run .newId
  save ⟨subsystemId, nqn, [], [], [], allowAny⟩
  return some subsystemId

def attachDevice (req : CreateSubsystemRequest) (subsystemId : Name) : Option Name → Service Unit
  | some devicePath => do
    let _ ← addNamespace subsystemId devicePath req.backingVolume
    let _ ← addPort (req.addPort subsystemId)
    onlyIf (req.addr = none) (addSibling req subsystemId)
  | none => pure ()

def create (req : CreateSubsystemRequest) : Service Unit := do
  match ← createEmpty req with
  | none => return
  | some subsystemId =>
    attachDevice req subsystemId req.devicePath
    each (req.allowedHosts.getD []) fun host => addHost subsystemId host

def delete (id : Name) : Service Unit := do
  let subsys ← load id
  ignore (other ("write " ++ subsysPath subsys.nqn ++ "/namespaces/*/enable=0"))
  each subsys.ports fun p => ignore (unlink p.portId subsys.nqn)
  ignore (other ("rmdir " ++ subsysPath subsys.nqn ++ "/namespaces/*"))
  ignore (other ("unlink " ++ subsysPath subsys.nqn ++ "/allowed_hosts/*"))
  each subsys.ports fun p => removeIfEmpty p.portId
  rmdirSubsystem subsys.nqn
  orFail .io (← run (.remove id))

/-! ## Restoring -/

/-- Run a step of the restore; its error becomes a failure that is named after the step. -/
def failureOf (what : String) (step : Service Unit) : Service (List String) := do
  match ← attempt step with
  | .ok _ => return []
  | .error e => return [what ++ ": " ++ NvmeofError.message e]

def restoreNamespace (nqn : Name) (ns : Namespace) : Service (List String) :=
  let path := namespacePath nqn ns.nsid
  failureOf (.ofList nqn ++ " namespace " ++ toString ns.nsid) do
    other ("mkdir " ++ path)
    other ("write " ++ path ++ "/enable=0")
    let found ← run (.deviceExists ns.devicePath)
    refuse (found = false) (.deviceNotFound ns.devicePath)
    other ("write " ++ path ++ "/device_path=" ++ .ofList ns.devicePath)
    other ("write " ++ path ++ "/buffered_io=0")
    onlyIf ns.enabled (other ("write " ++ path ++ "/enable=1"))

def restoreHost (nqn hostNqn : Name) : Service (List String) :=
  failureOf (.ofList nqn ++ " host " ++ .ofList hostNqn) do
    other ("mkdir " ++ hostPath hostNqn)
    other ("symlink " ++ hostLink nqn hostNqn)

def listenOf (p : Port) : Listen :=
  listen p.transport p.addr p.serviceId p.addrFamily

/-- What a port is looked up by: its service id is read as a number first. -/
def wantedOf (p : Port) : Listen :=
  listen p.transport p.addr
    (Nat.toDigits 10 ((Text.unsigned 65535 p.serviceId).getD 4420)) p.addrFamily

def restorePort (nqn : Name) (p : Port) : Service (List String) := do
  let what := .ofList nqn ++ " port " ++ toString p.portId
  match ← findExistingPort (wantedOf p) with
  | some existing => bindPort existing
  | none =>
    match ← failureOf what (openPort p.portId (listenOf p)) with
    | [] => bindPort p.portId
    | failures => return failures
where
  bindPort (actual : ℕ) : Service (List String) :=
    failureOf (.ofList nqn ++ " port " ++ toString actual ++ " bind") (ensureSymlink actual nqn)

def restoreSubsystem (s : NvmeofSubsystem) : Service (List String) := do
  match ← failureOf (.ofList s.nqn ++ " subsystem") (mkdirSubsystem s.nqn) with
  | [] =>
    match ← failureOf (.ofList s.nqn ++ " access policy") (writeAllowAnyHost s.nqn s.allowAnyHost) with
    | [] =>
      let namespaces ← collect s.namespaces (restoreNamespace s.nqn)
      let hosts ← collect s.allowedHosts (restoreHost s.nqn)
      let ports ← collect s.ports (restorePort s.nqn)
      return namespaces ++ hosts ++ ports
    | failures => return failures
  | failures => return failures

def restore : Service Unit := do
  let enabled ← run .protocolEnabled
  onlyIf enabled do
    let subsystems ← loadAllStrict
    let failures ← collect subsystems restoreSubsystem
    refuse (failures ≠ []) (.configFs ("; ".intercalate failures))

end Nvmeof

end Nasty.Sharing
