import Nasty.Network.Config

/-!
# The layered network model

`network/layered.rs`: the flat configuration split into L2 links, L3 addresses and routes, and
the two converters between the shapes. `toLayered` flattens the five kinds of links into one
list and synthesizes a physical link for every bond or bridge member nobody declared;
`fromLayered` groups addresses and routes by link name again.
-/

namespace Nasty.Network.Layered

inductive LinkKind
  | physical
  | bond (members : List String) (mode : BondMode) (inheritMemberMac : Bool)
  | bridge (members : List String) (stp : Bool) (forwardDelayS : Option UInt8)
      (inheritMemberMac : Bool) (dhcpRelay : Option DhcpRelayConfig)
  | vlan (parent : String) (id : UInt16)
  | macvlan (parent mode : String)

structure Link where
  name : String
  enabled : Bool := true
  mtu : Option UInt16 := none
  mac : Option String := none
  sriovNumVfs : Option UInt32 := none
  vfs : List VfConfig := []
  kind : LinkKind

inductive Family
  | v4
  | v6

structure Address where
  link : String
  family : Family
  method : IpMethod
  cidr : List String := []
  gateway : Option String := none

structure Route where
  table : UInt32 := 254
  dst : String
  via : Option String := none
  dev : String
  metric : Option UInt32 := none

structure LayeredConfig where
  links : List Link := []
  addresses : List Address := []
  routes : List Route := []
  dns : List String := []

def Link.members (l : Link) : List String :=
  match l.kind with
  | .bond members _ _ => members
  | .bridge members _ _ _ _ => members
  | _ => []

/-! ## To the layered shape -/

def isEmptyIp (ip : IpConfig) : Bool :=
  ip.method == .disabled && ip.addresses.isEmpty && ip.gateway.isNone

/-- The address row of one family; an empty setting gives no row. -/
def addressRow (link : String) (family : Family) (ip : IpConfig) : List Address :=
  if isEmptyIp ip then []
  else [{ link, family, method := ip.method, cidr := ip.addresses, gateway := ip.gateway }]

def pushAddresses (link : String) (v4 v6 : IpConfig) : List Address :=
  addressRow link .v4 v4 ++ addressRow link .v6 v6

def interfaceLink (i : InterfaceConfig) : Link :=
  { name := i.name, enabled := i.enabled, mtu := i.mtu, sriovNumVfs := i.sriovNumVfs,
    vfs := i.vfs, kind := .physical }

def bondLink (b : BondConfig) : Link :=
  { name := b.name, mtu := b.mtu, kind := .bond b.members b.mode b.inheritMemberMac }

def bridgeLink (b : BridgeConfig) : Link :=
  { name := b.name, mtu := b.mtu,
    kind := .bridge b.members b.stp b.forwardDelayS b.inheritMemberMac b.dhcpRelay }

def vlanLink (v : VlanConfig) : Link :=
  { name := v.name, mtu := v.mtu, kind := .vlan v.parent v.vlanId }

def macvlanLink (m : MacvlanConfig) : Link :=
  { name := m.name, mtu := m.mtu, kind := .macvlan m.parent m.mode }

/-- The links the configuration declares, in the order the converter emits them. -/
def declaredLinks (c : NetworkConfig) : List Link :=
  c.interfaces.map interfaceLink ++ c.bonds.map bondLink ++ c.bridges.map bridgeLink ++
    c.vlans.map vlanLink ++ c.macvlans.map macvlanLink

/-- The L3 settings the converter emits rows for; a macvlan has no IPv6 side. -/
def l3Settings (c : NetworkConfig) : List (String × IpConfig × IpConfig) :=
  c.interfaces.map (fun i => (i.name, i.ipv4, i.ipv6)) ++
    c.bonds.map (fun b => (b.name, b.ipv4, b.ipv6)) ++
    c.bridges.map (fun b => (b.name, b.ipv4, b.ipv6)) ++
    c.vlans.map (fun v => (v.name, v.ipv4, v.ipv6)) ++
    c.macvlans.map (fun m => (m.name, m.ipv4, ({} : IpConfig)))

def macvlanRoutes (m : MacvlanConfig) : List Route :=
  m.routes.map fun dst => { table := 254, dst, via := none, dev := m.name, metric := none }

def synthesizedLink (name : String) : Link := { name, kind := .physical }

/-- Walk the mentioned members, skipping declared names and names already synthesized. -/
def synthesize (declared : List String) : List String → List String → List Link
  | [], _ => []
  | m :: ms, seen =>
    if m ∈ declared ∨ m ∈ seen then synthesize declared ms seen
    else synthesizedLink m :: synthesize declared ms (m :: seen)

def toLayered (legacy : NetworkConfig) : LayeredConfig :=
  let links := declaredLinks legacy
  let declared := links.map (·.name)
  { links := links ++ synthesize declared (links.flatMap Link.members) []
    addresses := (l3Settings legacy).flatMap fun (name, v4, v6) => pushAddresses name v4 v6
    routes := legacy.macvlans.flatMap macvlanRoutes
    dns := legacy.dns }

/-! ## From the layered shape -/

/-- The IPv4 and IPv6 settings of every link; the default where a link has no row. -/
abbrev L3Map := String → IpConfig × IpConfig

/-- A later row of the same link and family replaces the earlier one. -/
def addAddress (out : L3Map) (a : Address) : L3Map :=
  let ip : IpConfig := { method := a.method, addresses := a.cidr, gateway := a.gateway }
  Function.update out a.link <|
    match a.family with
    | .v4 => (ip, (out a.link).2)
    | .v6 => ((out a.link).1, ip)

def groupAddresses (addrs : List Address) : L3Map := addrs.foldl addAddress fun _ => ({}, {})

def routesByDev (routes : List Route) (dev : String) : List String :=
  (routes.filter (·.dev = dev)).map (·.dst)

def pushLink (l3 : L3Map) (routes : List Route) (out : NetworkConfig) (link : Link) :
    NetworkConfig :=
  let (ipv4, ipv6) := l3 link.name
  match link.kind with
  | .physical =>
    { out with interfaces := out.interfaces ++
        [{ name := link.name, enabled := link.enabled, ipv4, ipv6, mtu := link.mtu,
           sriovNumVfs := link.sriovNumVfs, vfs := link.vfs }] }
  | .bond members mode inheritMemberMac =>
    { out with bonds := out.bonds ++
        [{ name := link.name, members, mode, ipv4, ipv6, mtu := link.mtu, inheritMemberMac }] }
  | .bridge members stp forwardDelayS inheritMemberMac dhcpRelay =>
    { out with bridges := out.bridges ++
        [{ name := link.name, members, ipv4, ipv6, mtu := link.mtu, stp, forwardDelayS,
           inheritMemberMac, dhcpRelay }] }
  | .vlan parent id =>
    { out with vlans := out.vlans ++ [{ parent, vlanId := id, ipv4, ipv6, mtu := link.mtu }] }
  | .macvlan parent mode =>
    { out with macvlans := out.macvlans ++
        [{ name := link.name, parent, mode, ipv4, mtu := link.mtu,
           routes := routesByDev routes link.name }] }

def fromLayered (layered : LayeredConfig) : NetworkConfig :=
  layered.links.foldl (pushLink (groupAddresses layered.addresses) layered.routes)
    { dns := layered.dns }

end Nasty.Network.Layered
