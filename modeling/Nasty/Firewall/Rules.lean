import Nasty.Lib.Lists
import Nasty.Network.DhcpRelay

/-!
# Firewall rules

Service rules own ports: each protocol, the WebUI, the RDMA transports and the domain controller
have a list of them. A service may be restricted to source networks and to interfaces; the
restriction is written into its ports, one entry for every combination (`applyRestrictions`).
Custom rules open further ports and may not overlap the ports that services own.
-/

namespace Nasty.Firewall

inductive Transport
  | tcp
  | udp
  deriving DecidableEq

structure PortSpec where
  port : ℕ
  toPort : Option ℕ
  transport : Transport
  source : Option String
  iface : Option String
  deriving DecidableEq

structure FirewallRule where
  service : String
  ports : List PortSpec
  active : Bool
  deriving DecidableEq

/-- Absent entries stand for no restriction. -/
structure FirewallRestrictions where
  services : String → Option (List String)
  interfaces : String → Option (List String)

structure CustomRule where
  id : String
  label : String
  transport : Transport
  fromPort : ℕ
  toPort : ℕ
  source : Option String
  iface : Option String
  enabled : Bool
  deriving DecidableEq

structure CustomRuleInput where
  label : String
  transport : Transport
  fromPort : ℕ
  toPort : ℕ
  source : Option String
  iface : Option String
  enabled : Bool

structure PublishedAppPort where
  app : String
  hostPort : ℕ
  containerPort : ℕ
  transport : String
  deriving DecidableEq

structure FirewallConfig where
  rules : List FirewallRule
  restrictions : FirewallRestrictions
  custom : List CustomRule
  published : List PublishedAppPort

/-! ## Ports of the services -/

inductive Protocol
  | nfs
  | smb
  | iscsi
  | nvmeof
  | nut
  | ssh
  | avahi
  | smart
  | watchdog
  | restServer
  deriving DecidableEq

def Protocol.name : Protocol → String
  | nfs => "nfs"
  | smb => "smb"
  | iscsi => "iscsi"
  | nvmeof => "nvmeof"
  | nut => "nut"
  | ssh => "ssh"
  | avahi => "avahi"
  | smart => "smart"
  | watchdog => "watchdog"
  | restServer => "rest-server"

def Protocol.all : List Protocol :=
  [nfs, smb, iscsi, nvmeof, nut, ssh, avahi, smart, watchdog, restServer]

def Protocol.fromName (name : String) : Option Protocol := all.find? (·.name = name)

def tcp (port : ℕ) : PortSpec := ⟨port, none, .tcp, none, none⟩
def udp (port : ℕ) : PortSpec := ⟨port, none, .udp, none, none⟩
def tcpRange (low high : ℕ) : PortSpec := ⟨low, some high, .tcp, none, none⟩

def portsForProtocol : Protocol → List PortSpec
  | .nfs => [tcp 2049]
  | .smb => [tcp 445, tcp 139, udp 3702, tcp 5357]
  | .iscsi => [tcp 3260]
  | .nvmeof => [tcp 4420]
  | .nut => [tcp 3493]
  | .ssh => [tcp 22]
  | .avahi => [udp 5353]
  | .smart => []
  | .watchdog => []
  | .restServer => [tcp 8000]

structure ListenerPorts where
  httpsPort : ℕ
  httpPort : Option ℕ
  deriving DecidableEq

def webuiPorts (https : ℕ) (http : Option ℕ) : List PortSpec := (http.toList ++ [https]).map tcp

def ListenerPorts.ports (l : ListenerPorts) : List PortSpec := webuiPorts l.httpsPort l.httpPort

def rdmaPorts : List PortSpec := [udp 4791, tcp 20049]

def dcPorts : List PortSpec :=
  [53, 88, 389, 464].flatMap (fun p => [tcp p, udp p]) ++
    [135, 139, 445, 636, 3268, 3269].map tcp ++ [137, 138].map udp ++ [tcpRange 49152 65535]

/-! ## Addresses and names -/

inductive IpFamily
  | v4
  | v6
  deriving DecidableEq

def splitDoubleColon : List Char → Option (List Char × List Char)
  | [] => none
  | c :: cs =>
    if c = ':' ∧ cs.head? = some ':' then some ([], cs.tail)
    else (splitDoubleColon cs).map fun (head, tail) => (c :: head, tail)

def isHexGroup (cs : List Char) : Bool := cs ≠ [] ∧ cs.length ≤ 4 ∧ cs.all Text.isAsciiHexdigit

/-- The 16-bit groups between colons; an IPv4 address at the end counts as two. -/
def groupCount (embedded : Bool) (cs : List Char) : Option ℕ :=
  if cs = [] then some 0
  else
    let groups := Text.split ':' cs
    if groups.all isHexGroup then some groups.length
    else if embedded ∧ groups.dropLast.all isHexGroup ∧
        (groups.getLast?.bind Network.DhcpRelay.parseIpv4).isSome then some (groups.length + 1)
    else none

/-- `str::parse::<Ipv6Addr>` succeeds. -/
def isIpv6 (cs : List Char) : Bool :=
  match splitDoubleColon cs with
  | none => groupCount true cs = some 8
  | some (head, tail) =>
    match groupCount false head, groupCount true tail with
    | some h, some t => h + t ≤ 7
    | _, _ => false

/-- `str::parse::<IpAddr>`, by family. -/
def ipFamily (cs : List Char) : Option IpFamily :=
  if (Network.DhcpRelay.parseIpv4 cs).isSome then some .v4
  else if isIpv6 cs then some .v6
  else none

def validSource (s : String) : Bool :=
  let (address, bits) :=
    match Text.splitOnce '/' s.toList with
    | some (address, bits) => (address, some bits)
    | none => (s.toList, none)
  match ipFamily address, bits with
  | none, _ => false
  | some _, none => true
  | some family, some bits =>
    match Text.unsigned 255 bits with
    | none => false
    | some n => n ≤ if family = .v4 then 32 else 128

def validIface (s : String) : Bool :=
  !s.isEmpty && s.utf8ByteSize ≤ 15 &&
    s.toList.all fun c => c.isAlphanum || c ∈ ['.', '_', '-', '@']

/-! ## Custom rules -/

def validateCustomInput (input : CustomRuleInput) : Except String Unit := do
  .refuse (input.fromPort = 0) "port must be ≥ 1"
  .refuse (input.fromPort > input.toPort) "range start must be ≤ range end"
  let label := String.ofList (Text.trim input.label.toList)
  .refuse (label = "") "label is required"
  .refuse (label.utf8ByteSize > 64) "label must be ≤ 64 characters"
  .refuse (input.label.toList.any Text.isControl) "label must not contain control characters"
  match input.source with
  | some src => .refuse (! validSource src) s!"invalid source (expected an IP or CIDR): {src}"
  | none => .ok ()
  match input.iface with
  | some iface => .refuse (! validIface iface) s!"invalid interface name: {iface}"
  | none => .ok ()

def PortSpec.high (p : PortSpec) : ℕ := p.toPort.getD p.port

def PortSpec.Meets (p : PortSpec) (transport : Transport) (low high : ℕ) : Prop :=
  p.transport = transport ∧ p.port ≤ high ∧ low ≤ p.high

instance (p : PortSpec) (transport : Transport) (low high : ℕ) :
    Decidable (p.Meets transport low high) :=
  inferInstanceAs (Decidable (_ ∧ _))

def servicePortConflict (rules : List FirewallRule) (transport : Transport) (low high : ℕ) :
    Option String :=
  (rules.find? fun rule => rule.ports.any fun p => p.Meets transport low high).map (·.service)

theorem servicePortConflict_eq_none {rules : List FirewallRule} {transport : Transport}
    {low high : ℕ} :
    servicePortConflict rules transport low high = none ↔
      ∀ rule ∈ rules, ∀ p ∈ rule.ports, ¬ p.Meets transport low high := by
  simp [servicePortConflict]

def sameRule (r : CustomRule) (input : CustomRuleInput) : Bool :=
  r.transport = input.transport ∧ r.fromPort = input.fromPort ∧ r.toPort = input.toPort ∧
    r.source = input.source ∧ r.iface = input.iface

def CustomRuleInput.rule (input : CustomRuleInput) (id : String) : CustomRule where
  id
  label := String.ofList (Text.trim input.label.toList)
  transport := input.transport
  fromPort := input.fromPort
  toPort := input.toPort
  source := input.source
  iface := input.iface
  enabled := input.enabled

/-! ## Restrictions -/

def FirewallRestrictions.sources (r : FirewallRestrictions) (service : String) : List String :=
  (r.services service).getD []

def FirewallRestrictions.ifaces (r : FirewallRestrictions) (service : String) : List String :=
  (r.interfaces service).getD []

def PortSpec.bare (p : PortSpec) : PortSpec := { p with source := none, iface := none }

def PortSpec.restricted (sources ifaces : List String) (p : PortSpec) : List PortSpec :=
  if sources ≠ [] ∧ ifaces ≠ [] then
    sources.flatMap fun src => ifaces.map fun iface =>
      { p with source := some src, iface := some iface }
  else if sources ≠ [] then sources.map fun src => { p with source := some src, iface := none }
  else ifaces.map fun iface => { p with source := none, iface := some iface }

def applyRestrictions (ports : List PortSpec) (sources ifaces : List String) : List PortSpec :=
  if sources = [] ∧ ifaces = [] then ports else ports.flatMap (PortSpec.restricted sources ifaces)

def FirewallRestrictions.apply (r : FirewallRestrictions) (service : String)
    (ports : List PortSpec) : List PortSpec :=
  applyRestrictions ports (r.sources service) (r.ifaces service)

def replaceRulePorts (restrictions : FirewallRestrictions) (service : String)
    (ports : List PortSpec) (rules : List FirewallRule) : Bool × List FirewallRule :=
  let ports := restrictions.apply service ports
  match rules.find? (·.service = service) with
  | some rule =>
    if rule.ports = ports then (false, rules)
    else (true, rules.modifyFirst (·.service = service) fun rule => { rule with ports })
  | none => (true, rules ++ [{ service, ports, active := false }])

end Nasty.Firewall
