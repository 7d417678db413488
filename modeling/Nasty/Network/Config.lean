import Mathlib.Algebra.Group.Nat.Defs
import Mathlib.Data.List.Basic

/-!
# The network configuration

The persisted `NetworkConfig` of `network.rs`: interfaces, bonds, bridges, VLANs and macvlan
shims, each with its own L3 settings. Field names and defaults are those of the source.
-/

namespace Nasty.Network

abbrev Ipv4Addr := BitVec 32

def Ipv4Addr.octet (ip : Ipv4Addr) (i : ℕ) : ℕ := ip.toNat / 256 ^ (3 - i) % 256

def Ipv4Addr.text (ip : Ipv4Addr) : String :=
  s!"{ip.octet 0}.{ip.octet 1}.{ip.octet 2}.{ip.octet 3}"

inductive IpMethod
  | dhcp
  | static
  | slaac
  | inherit
  | disabled
  deriving DecidableEq

structure IpConfig where
  method : IpMethod := .disabled
  addresses : List String := []
  gateway : Option String := none
  deriving DecidableEq

instance : Inhabited IpConfig := ⟨{}⟩

structure VfConfig where
  index : UInt32
  vlan : Option UInt16 := none
  mac : Option String := none
  trust : Option Bool := none
  spoofCheck : Option Bool := none
  deriving DecidableEq

structure InterfaceConfig where
  name : String
  enabled : Bool := true
  ipv4 : IpConfig := {}
  ipv6 : IpConfig := {}
  mtu : Option UInt16 := none
  sriovNumVfs : Option UInt32 := none
  vfs : List VfConfig := []
  deriving DecidableEq

inductive BondMode
  | lacp
  | activeBackup
  | balanceRr
  | balanceXor
  deriving DecidableEq

structure BondConfig where
  name : String
  members : List String
  mode : BondMode
  ipv4 : IpConfig := {}
  ipv6 : IpConfig := {}
  mtu : Option UInt16 := none
  inheritMemberMac : Bool := true
  deriving DecidableEq

structure VlanConfig where
  parent : String
  vlanId : UInt16
  ipv4 : IpConfig := {}
  ipv6 : IpConfig := {}
  mtu : Option UInt16 := none
  deriving DecidableEq

def VlanConfig.name (v : VlanConfig) : String := s!"{v.parent}.{v.vlanId.toNat}"

structure DhcpRelayConfig where
  server : Ipv4Addr
  upstream : String
  deriving DecidableEq

def inheritIp : IpConfig := { method := .inherit, addresses := [], gateway := none }

structure BridgeConfig where
  name : String
  members : List String := []
  ipv4 : IpConfig := inheritIp
  ipv6 : IpConfig := inheritIp
  mtu : Option UInt16 := none
  stp : Bool := false
  forwardDelayS : Option UInt8 := none
  inheritMemberMac : Bool := true
  dhcpRelay : Option DhcpRelayConfig := none
  deriving DecidableEq

structure MacvlanConfig where
  name : String
  parent : String
  mode : String := "bridge"
  ipv4 : IpConfig := {}
  mtu : Option UInt16 := none
  routes : List String := []
  deriving DecidableEq

structure NetworkConfig where
  interfaces : List InterfaceConfig := []
  dns : List String := []
  bonds : List BondConfig := []
  vlans : List VlanConfig := []
  bridges : List BridgeConfig := []
  macvlans : List MacvlanConfig := []
  deriving DecidableEq

instance : Inhabited NetworkConfig := ⟨{}⟩

/-- A live interface as `enumerate_interfaces` reports it, with the fields the update path
reads. -/
structure LiveInterface where
  name : String
  kind : String
  sriovTotalVfs : Option UInt32 := none

end Nasty.Network
