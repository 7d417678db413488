import Nasty.Lib.Checks
import Nasty.Lib.Text
import Nasty.Network.Config

/-!
# The managed DHCP relay

`render` checks the relay settings of every bridge and prints the daemon configuration and the
firewall rules. An update refuses a configuration it cannot render.
-/

namespace Nasty.Network.DhcpRelay

/-! ## Names and addresses -/

def interfaceName (name : String) : Bool :=
  !name.isEmpty && name.utf8ByteSize ≤ 15 &&
    name.toList.all fun c => c.isAlphanum || c ∈ ['_', '-', '.', ':']

def unicast (ip : Ipv4Addr) : Bool :=
  ip ≠ 0 && ip.octet 0 ≠ 127 && !(224 ≤ ip.octet 0 ∧ ip.octet 0 ≤ 239) && ip ≠ BitVec.allOnes 32 &&
    !(ip.octet 0 = 169 ∧ ip.octet 1 = 254) && (1 ≤ ip.octet 0 ∧ ip.octet 0 < 224)

def parseOctet (cs : List Char) : Option ℕ :=
  if cs.length ≤ 3 ∧ (1 < cs.length → cs.head? ≠ some '0') then Text.digits 255 cs else none

def parseIpv4 (cs : List Char) : Option Ipv4Addr :=
  match (Text.split '.' cs).mapM parseOctet with
  | some [a, b, c, d] => some (BitVec.ofNat 32 (((a * 256 + b) * 256 + c) * 256 + d))
  | _ => none

structure CidrParts where
  ip : Ipv4Addr
  network : BitVec 32
  mask : BitVec 32
  prefixLen : ℕ

def cidrParts (cidr : String) : Except String CidrParts :=
  match Text.splitOnce '/' cidr.toList with
  | none => .error "relay bridge address needs an IPv4 prefix"
  | some (address, len) =>
    match parseIpv4 address with
    | none => .error "relay bridge address must be IPv4"
    | some ip =>
      match Text.unsigned 255 len with
      | none => .error "invalid relay bridge prefix"
      | some prefixLen =>
        if 32 < prefixLen then .error "invalid IPv4 prefix"
        else
          let mask := BitVec.allOnes 32 <<< (32 - prefixLen)
          .ok { ip, network := ip &&& mask, mask, prefixLen }

def subnet (cidr : String) : Except String CidrParts := do
  let parts ← cidrParts cidr
  .refuse (¬ (1 ≤ parts.prefixLen ∧ parts.prefixLen ≤ 30))
    "relay bridge prefix must be between 1 and 30"
  .refuse (¬ unicast parts.ip ∨ parts.ip = parts.network ∨
      parts.ip = parts.network ||| ~~~ parts.mask)
    "relay bridge needs a usable unicast host address"
  return parts

/-- Either network contains the other's base address. -/
def overlaps (network mask otherNetwork otherMask : BitVec 32) : Bool :=
  network &&& otherMask = otherNetwork || otherNetwork &&& mask = network

/-! ## Rendering -/

structure Rendered where
  conf : String
  rules : String
  subnets : List (BitVec 32 × BitVec 32)

/-- The static addresses a relay subnet is compared with: everything but its own bridge. -/
def otherAddresses (config : NetworkConfig) (bridge : BridgeConfig) : List String :=
  config.interfaces.flatMap (·.ipv4.addresses) ++ config.bonds.flatMap (·.ipv4.addresses) ++
    config.vlans.flatMap (·.ipv4.addresses) ++
    (config.bridges.filter (·.name ≠ bridge.name)).flatMap (·.ipv4.addresses)

def checkOverlap (parts : CidrParts) (cidr : String) : Except String Unit :=
  match cidrParts cidr with
  | .ok other => .refuse (overlaps parts.network parts.mask other.network other.mask)
      s!"DHCP relay subnet overlaps configured address {cidr}"
  | .error _ => .ok ()

def renderBridge (config : NetworkConfig) (out : Rendered) (bridge : BridgeConfig) :
    Except String Rendered :=
  match bridge.dhcpRelay with
  | none => .ok out
  | some relay => do
    .refuse (¬ interfaceName bridge.name ∨ ¬ interfaceName relay.upstream ∨
        bridge.name = relay.upstream)
      "DHCP relay requires distinct valid bridge and upstream interface names"
    .refuse (bridge.members ≠ [])
      s!"DHCP relay bridge '{bridge.name}' must have no physical members"
    match bridge.ipv4.method, bridge.ipv4.addresses, bridge.ipv4.gateway with
    | .static, [address], none =>
      let parts ← subnet address
      .refuse (¬ unicast relay.server ∨ relay.server &&& parts.mask = parts.network)
        "DHCP server must be a unicast IPv4 address outside the guest subnet"
      .checkAll (fun (network, mask) =>
        .refuse (overlaps parts.network parts.mask network mask)
          "DHCP relay bridge subnets must not overlap") out.subnets
      .checkAll (checkOverlap parts) (otherAddresses config bridge)
      let local4 := parts.ip.text
      let server := relay.server.text
      return {
        conf := out.conf ++
          s!"interface={bridge.name}\ndhcp-relay={local4},{server},{relay.upstream}\n"
        rules := out.rules ++
          s!"add rule inet nasty dhcp_relay iifname \"{bridge.name}\" " ++
          "udp sport 68 udp dport 67 accept\n" ++
          s!"add rule inet nasty dhcp_relay iifname \"{relay.upstream}\" ip saddr {server} " ++
          "udp sport 67 udp dport 67 accept\n"
        subnets := out.subnets ++ [(parts.network, parts.mask)] }
    | _, _, _ =>
      .error "DHCP relay requires one static IPv4 bridge address and no host default gateway"

/-- The daemon configuration and the firewall rules; both empty when no bridge relays. -/
def render (config : NetworkConfig) : Except String (String × String) := do
  let out ← config.bridges.foldlM (renderBridge config)
    { conf := "port=0\nbind-dynamic\nlog-dhcp\n", rules := "", subnets := [] }
  return (if out.rules.isEmpty then "" else out.conf, out.rules)

def validateUpstreams (config : NetworkConfig) (live : List String) : Except String Unit :=
  .checkAll (fun bridge =>
    match bridge.dhcpRelay with
    | none => .ok ()
    | some relay =>
      .refuse (relay.upstream ∉ live ∨
          (∃ b ∈ config.bridges, b.name = relay.upstream ∨ relay.upstream ∈ b.members) ∨
          ∃ b ∈ config.bonds, relay.upstream ∈ b.members)
        s!"DHCP relay upstream '{relay.upstream}' must be an existing standalone L3 interface")
    config.bridges

end Nasty.Network.DhcpRelay
