import Nasty.Network.DhcpRelay

/-!
# Preparing an update

What `NetworkService::update` does before it touches the disk: the checks on the request, the
resolution of inherited L3 settings, the checks against the live devices, and the removal of
stale interface entries whose name a virtual link takes over.
-/

namespace Nasty.Network

open DhcpRelay

/-! ## Checks on the request -/

def validateIpConfig (ip : IpConfig) (label : String) : Except String Unit :=
  .refuse (ip.method = .static ∧ ip.addresses = [])
    s!"{label} static mode requires at least one address"

def validateIps (ipv4 ipv6 : IpConfig) : Except String Unit := do
  validateIpConfig ipv4 "IPv4"
  validateIpConfig ipv6 "IPv6"

def checkMacvlan (mgmtIface : Option String) (mv : MacvlanConfig) : Except String Unit := do
  .refuse (mv.name = "" ∨ mv.parent = "") "macvlan name and parent are required"
  .refuse (mgmtIface = some mv.parent)
    s!"refusing macvlan shim on management interface '{mv.parent}'"
  validateIpConfig mv.ipv4 "IPv4"

def checkRequest (config : NetworkConfig) (mgmtIface : Option String) : Except String Unit := do
  .checkAll (fun iface => validateIps iface.ipv4 iface.ipv6) config.interfaces
  .checkAll (fun bond => do
    .refuse (bond.members = []) s!"Bond '{bond.name}' has no members"
    validateIps bond.ipv4 bond.ipv6) config.bonds
  .checkAll (fun vlan => do
    .refuse (vlan.vlanId = 0 ∨ vlan.vlanId > 4094) s!"VLAN ID {vlan.vlanId} is invalid (1-4094)"
    validateIps vlan.ipv4 vlan.ipv6) config.vlans
  .checkAll (fun bridge => do
    .refuse (bridge.name = "") "Bridge name is required"
    validateIps bridge.ipv4 bridge.ipv6) config.bridges
  let _ ← render config
  .checkAll (checkMacvlan mgmtIface) config.macvlans

/-! ## Inherited settings -/

structure LiveTopology where
  addrs : String → Bool → List String := fun _ _ => []
  defaultVia : String → Bool → Option String := fun _ _ => none
  isDhcpManagedV4 : String → Bool := fun _ => false

def inheritFromPrev (prev : NetworkConfig) (v6 : Bool) (member : String) : Option IpConfig := do
  let iface ← prev.interfaces.find? (·.name = member)
  let ip := if v6 then iface.ipv6 else iface.ipv4
  match ip.method with
  | .dhcp => some { method := .dhcp }
  | .static => if ip.addresses ≠ [] then some ip else none
  | .slaac => if v6 then some { method := .slaac } else none
  | _ => none

/-- What the kernel's view of a member gives a bridge; a DHCP lease is never made static. -/
def inheritFromLive (live : LiveTopology) (v6 : Bool) (member : String) : Option IpConfig :=
  if ¬ v6 ∧ live.isDhcpManagedV4 member then some { method := .dhcp }
  else if live.addrs member v6 ≠ [] then
    some { method := .static, addresses := live.addrs member v6,
           gateway := live.defaultVia member v6 }
  else none

def resolveInheritOne (members : List String) (prev : NetworkConfig) (live : LiveTopology)
    (v6 : Bool) : IpConfig :=
  (members.findSome? fun member =>
    (inheritFromPrev prev v6 member).or (inheritFromLive live v6 member)).getD {}

def resolveInherit (config prev : NetworkConfig) (live : LiveTopology) : NetworkConfig :=
  { config with
    bridges := config.bridges.map fun bridge =>
      { bridge with
        ipv4 := if bridge.ipv4.method = .inherit then
            resolveInheritOne bridge.members prev live false else bridge.ipv4
        ipv6 := if bridge.ipv6.method = .inherit then
            resolveInheritOne bridge.members prev live true else bridge.ipv6 } }

/-! ## Checks against the live devices -/

/-- The live interface of a name; the maps collected from the list keep the last one. -/
def liveByName (live : List LiveInterface) (name : String) : Option LiveInterface :=
  live.reverse.find? (·.name = name)

def isInfiniband (live : List LiveInterface) (name : String) : Bool :=
  (liveByName live name).any (·.kind = "infiniband")

def refuseInfiniband (live : List LiveInterface) (names : List String) (why : String) :
    Except String Unit :=
  match names.find? (isInfiniband live) with
  | some m => .error s!"'{m}' is an InfiniBand (IPoIB) interface — {why}"
  | none => .ok ()

def rejectInfinibandRefs (config : NetworkConfig) (live : List LiveInterface) :
    Except String Unit := do
  .checkAll (fun bond => refuseInfiniband live bond.members
    (s!"it cannot be a member of bond '{bond.name}' (bonds are Ethernet-only; InfiniBand " ++
      "bonding is not yet supported, see #602)")) config.bonds
  .checkAll (fun bridge => refuseInfiniband live bridge.members
    s!"it cannot be enslaved to bridge '{bridge.name}' (bridges are Ethernet-only)")
    config.bridges
  .checkAll (fun vlan => refuseInfiniband live [vlan.parent]
    "VLANs on InfiniBand are not supported (IB partitions use P_Keys, not 802.1Q; see #602)")
    config.vlans
  .checkAll (fun mv => refuseInfiniband live [mv.parent]
    "macvlan requires an Ethernet parent") config.macvlans

def isValidMac (mac : String) : Bool :=
  let parts := Text.split ':' mac.toList
  parts.length = 6 && parts.all fun p => p.length = 2 && p.all Text.isAsciiHexdigit

def validateVf (iface : String) (count : UInt32) (seen : List UInt32) (vf : VfConfig) :
    Except String Unit := do
  let last := count.toNat - 1
  .refuse (vf.index ≥ count)
    s!"'{iface}' creates {count} VFs — VF index {vf.index} is out of range (0–{last})"
  .refuse (vf.index ∈ seen) s!"'{iface}' has duplicate configuration for VF index {vf.index}"
  match vf.vlan with
  | some vlan =>
    .refuse (¬ (1 ≤ vlan ∧ vlan ≤ 4094))
      s!"VF {vf.index} on '{iface}': VLAN {vlan} is not a valid 802.1Q id (1–4094)"
  | none => pure ()
  match vf.mac with
  | some mac =>
    .refuse (¬ isValidMac mac)
      (s!"VF {vf.index} on '{iface}': '{mac}' is not a valid MAC address " ++
        "(expected six colon-separated hex octets)")
  | none => pure ()

def validateVfs (iface : String) (count : UInt32) :
    List UInt32 → List VfConfig → Except String Unit
  | _, [] => .ok ()
  | seen, vf :: vfs => do
    validateVf iface count seen vf
    validateVfs iface count (vf.index :: seen) vfs

def validateVfProperties (iface : InterfaceConfig) : Except String Unit :=
  if iface.vfs = [] then .ok ()
  else
    match iface.sriovNumVfs with
    | none => .error (s!"'{iface.name}' has per-VF properties but no VF count — set the VF " ++
        "count on the interface first")
    | some count => validateVfs iface.name count [] iface.vfs

def validateSriov (config : NetworkConfig) (live : List LiveInterface) : Except String Unit :=
  .checkAll (fun iface => do
    validateVfProperties iface
    match iface.sriovNumVfs, (liveByName live iface.name).map (·.sriovTotalVfs) with
    | some n, some (some total) =>
      .refuse (n > total)
        s!"'{iface.name}' supports at most {total} virtual functions (requested {n})"
    | some _, some none =>
      .error (s!"'{iface.name}' is not SR-IOV capable — it exposes no sriov_totalvfs; " ++
        "VF count cannot be configured on it")
    | _, _ => .ok ()) config.interfaces

/-! ## The resolved configuration -/

def virtualNames (config : NetworkConfig) : List String :=
  config.bonds.map (·.name) ++ config.bridges.map (·.name) ++ config.macvlans.map (·.name) ++
    config.vlans.map (·.name)

/-- Drop the interface entries of absent devices whose name a virtual link takes over. -/
def supersedeAbsentPhysicalEntries (config : NetworkConfig) (liveNames : List String) :
    NetworkConfig :=
  { config with
    interfaces := config.interfaces.filter fun i =>
      ¬ (i.name ∈ virtualNames config ∧ i.name ∉ liveNames) }

def resolved (config prev : NetworkConfig) (live : LiveTopology)
    (liveIfaces : List LiveInterface) : NetworkConfig :=
  supersedeAbsentPhysicalEntries (resolveInherit config prev live) (liveIfaces.map (·.name))

def checkUpdate (config prev : NetworkConfig) (mgmtIface : Option String) (live : LiveTopology)
    (liveIfaces : List LiveInterface) : Except String Unit := do
  checkRequest config mgmtIface
  let config := resolveInherit config prev live
  rejectInfinibandRefs config liveIfaces
  validateSriov config liveIfaces
  validateUpstreams config (liveIfaces.map (·.name))

end Nasty.Network
