import Nasty.Network.Config
import Nasty.Lib.Text

/-!
# Risk classification

`classifyRisk` decides from the old and the new configuration whether an update may cut the
client off, and so whether it runs with a rollback window. `mgmtIfaceForPeer` finds the link the
client is connected through.
-/

namespace Nasty.Network

/-! ## The classifier -/

structure Master where
  name : String
  members : List String

def bridgeMasters (c : NetworkConfig) : List Master := c.bridges.map fun b => ⟨b.name, b.members⟩

def bondMasters (c : NetworkConfig) : List Master := c.bonds.map fun b => ⟨b.name, b.members⟩

/-- Lookup in the map collected from a list: the last entry of a name is the one kept. -/
def byMasterName (masters : List Master) (name : String) : Option Master :=
  masters.reverse.find? (·.name = name)

def enslaveRisk (kind mgmt : String) (prev next : List Master) : Option String :=
  next.findSome? fun master =>
    let wasMember := (byMasterName prev master.name).any (mgmt ∈ ·.members)
    if mgmt ∈ master.members ∧ ¬ wasMember then
      some s!"management iface {mgmt} is being enslaved into {kind} {master.name}"
    else none

def interfaceRisk (mgmt : String) (prev next : List InterfaceConfig) : Option String :=
  match prev.find? (·.name = mgmt), next.find? (·.name = mgmt) with
  | some p, some n =>
    if p.ipv4 ≠ n.ipv4 ∨ p.ipv6 ≠ n.ipv6 then
      some s!"IP config of management iface {mgmt} is changing"
    else if p.mtu ≠ n.mtu then some s!"MTU of management iface {mgmt} is changing"
    else if p.enabled ∧ ¬ n.enabled then some s!"management iface {mgmt} is being disabled"
    else none
  | some _, none => some s!"management iface {mgmt} is being removed from config"
  | none, _ => none

def removalRisk (kind mgmt : String) (prev next : List Master) : Option String :=
  prev.findSome? fun master =>
    if (byMasterName next master.name).isSome then none
    else if master.name = mgmt then some s!"management {kind} {mgmt} is being removed"
    else if mgmt ∈ master.members then
      some (s!"management iface {mgmt} is being released from {kind} {master.name} " ++
        "that's being removed")
    else none

def classifyRisk (prev next : NetworkConfig) : Option String → Option String
  | none =>
    if prev.bonds ≠ next.bonds ∨ prev.bridges ≠ next.bridges ∨ prev.vlans ≠ next.vlans then
      some "management iface unknown — applying topology change with rollback safety net"
    else none
  | some mgmt =>
    enslaveRisk "bridge" mgmt (bridgeMasters prev) (bridgeMasters next)
      |>.or (enslaveRisk "bond" mgmt (bondMasters prev) (bondMasters next))
      |>.or (interfaceRisk mgmt prev.interfaces next.interfaces)
      |>.or (removalRisk "bridge" mgmt (bridgeMasters prev) (bridgeMasters next))
      |>.or (removalRisk "bond" mgmt (bondMasters prev) (bondMasters next))

/-! ## The link a client is connected through -/

section

variable (routeDev : String → Option String) (master : String → Option String)

/-- Follow `master` links, at most `n` of them. -/
def walkToTopmostMaster : ℕ → String → String
  | 0, current => current
  | n + 1, current =>
    match master current with
    | some name => walkToTopmostMaster n name
    | none => current

/-- The part before the last colon, as a port suffix is stripped; the whole text without one. -/
def peerHost (peerAddr : String) : String :=
  match Text.rsplitOnce ':' peerAddr.toList with
  | some (host, _) => String.ofList host
  | none => peerAddr

/-- `routeDev` is the device in the answer of `ip route get`, `master` the sysfs master link. -/
def mgmtIfaceForPeer (peerAddr : String) : Option String :=
  if peerAddr.isEmpty ∨ peerAddr = "unknown" then none
  else (routeDev (peerHost peerAddr)).map (walkToTopmostMaster master 8)

end

/-! ## What an unflagged change keeps -/

/-- What holds of the management link `m` when a change is classified as safe. -/
structure MgmtKept (prev next : NetworkConfig) (m : String) : Prop where
  /-- Its interface entry stays, with the same L3 settings and MTU, and is not newly disabled. -/
  interface : ∀ p, prev.interfaces.find? (·.name = m) = some p →
    ∃ n, next.interfaces.find? (·.name = m) = some n ∧ n.ipv4 = p.ipv4 ∧ n.ipv6 = p.ipv6 ∧
      n.mtu = p.mtu ∧ (p.enabled → n.enabled)
  bridge : ∀ b ∈ prev.bridges, b.name = m → ∃ b' ∈ next.bridges, b'.name = m
  bond : ∀ b ∈ prev.bonds, b.name = m → ∃ b' ∈ next.bonds, b'.name = m
  bridgeJoin : ∀ b ∈ next.bridges, m ∈ b.members →
    ∃ b' ∈ prev.bridges, b'.name = b.name ∧ m ∈ b'.members
  bondJoin : ∀ b ∈ next.bonds, m ∈ b.members →
    ∃ b' ∈ prev.bonds, b'.name = b.name ∧ m ∈ b'.members
  bridgeHold : ∀ b ∈ prev.bridges, m ∈ b.members → ∃ b' ∈ next.bridges, b'.name = b.name
  bondHold : ∀ b ∈ prev.bonds, m ∈ b.members → ∃ b' ∈ next.bonds, b'.name = b.name

section

variable {prev next : List Master} {kind mgmt name : String}

theorem exists_of_byMasterName {masters : List Master} {master : Master}
    (h : byMasterName masters name = some master) : master ∈ masters ∧ master.name = name := by
  unfold byMasterName at h
  exact ⟨List.mem_reverse.1 (List.mem_of_find?_eq_some h), by simpa using List.find?_some h⟩

theorem enslaveRisk_none (h : enslaveRisk kind mgmt prev next = none) :
    ∀ n ∈ next, mgmt ∈ n.members → ∃ p ∈ prev, p.name = n.name ∧ mgmt ∈ p.members := by
  intro n hn hmem
  have hn := List.findSome?_eq_none_iff.1 h n hn
  simp only [ite_eq_right_iff, reduceCtorEq, imp_false, not_and] at hn
  have hwas := hn hmem
  rcases hp : byMasterName prev n.name with _ | p
  · simp [hp] at hwas
  · obtain ⟨hmem', hname⟩ := exists_of_byMasterName hp
    exact ⟨p, hmem', hname, by simpa [hp] using hwas⟩

theorem removalRisk_none (h : removalRisk kind mgmt prev next = none) :
    ∀ p ∈ prev, p.name = mgmt ∨ mgmt ∈ p.members → ∃ n ∈ next, n.name = p.name := by
  intro p hp hor
  have hp := List.findSome?_eq_none_iff.1 h p hp
  split_ifs at hp with hsome hname hmem
  · obtain ⟨n, hn⟩ := Option.isSome_iff_exists.1 hsome
    exact ⟨n, exists_of_byMasterName hn⟩
  · exact absurd hor (not_or.2 ⟨hname, hmem⟩)

end

theorem interfaceRisk_none {mgmt : String} {prev next : List InterfaceConfig}
    (h : interfaceRisk mgmt prev next = none) (p : InterfaceConfig)
    (hp : prev.find? (·.name = mgmt) = some p) :
    ∃ n, next.find? (·.name = mgmt) = some n ∧ n.ipv4 = p.ipv4 ∧ n.ipv6 = p.ipv6 ∧
      n.mtu = p.mtu ∧ (p.enabled → n.enabled) := by
  unfold interfaceRisk at h
  rw [hp] at h
  rcases hn : next.find? (·.name = mgmt) with _ | n <;> rw [hn] at h
  · cases h
  simp only at h
  split_ifs at h with hip hmtu hen
  rw [not_or, not_not, not_not] at hip
  exact ⟨n, hn, hip.1.symm, hip.2.symm, (not_not.1 hmtu).symm,
    fun he => not_not.1 fun hne => hen ⟨he, hne⟩⟩

theorem mgmtKept_of_classifyRisk {prev next : NetworkConfig} {m : String}
    (h : classifyRisk prev next (some m) = none) : MgmtKept prev next m := by
  unfold classifyRisk at h
  simp only [Option.or_eq_none_iff] at h
  obtain ⟨⟨⟨⟨hbr, hbo⟩, hif⟩, hrbr⟩, hrbo⟩ := h
  have hbr := enslaveRisk_none hbr
  have hbo := enslaveRisk_none hbo
  have hrbr := removalRisk_none hrbr
  have hrbo := removalRisk_none hrbo
  simp only [bridgeMasters, bondMasters, List.forall_mem_map] at hbr hbo hrbr hrbo
  simp only [List.mem_map, exists_exists_and_eq_and] at hbr hbo hrbr hrbo
  exact {
    interface := interfaceRisk_none hif
    bridge := fun b hb hname => by simpa only [hname] using hrbr b hb (.inl hname)
    bond := fun b hb hname => by simpa only [hname] using hrbo b hb (.inl hname)
    bridgeJoin := hbr
    bondJoin := hbo
    bridgeHold := fun b hb hmem => hrbr b hb (.inr hmem)
    bondHold := fun b hb hmem => hrbo b hb (.inr hmem) }

theorem eq_of_classifyRisk_unknown {prev next : NetworkConfig}
    (h : classifyRisk prev next none = none) :
    next.bonds = prev.bonds ∧ next.bridges = prev.bridges ∧ next.vlans = prev.vlans := by
  unfold classifyRisk at h
  split_ifs at h with hne
  simp only [not_or, not_not] at hne
  exact ⟨hne.1.symm, hne.2.1.symm, hne.2.2.symm⟩

theorem colon_not_mem_text (ip : Ipv4Addr) : ':' ∉ ip.text.toList := by
  have hcolon := Text.not_mem_toDigits_ten (c := ':') rfl
  have hdot : ':' ∉ (toString ".").toList := by decide
  simp [Ipv4Addr.text, hcolon, hdot]

theorem mgmtIfaceForPeer_text (routeDev master : String → Option String) (ip : Ipv4Addr) :
    mgmtIfaceForPeer routeDev master ip.text =
      (routeDev ip.text).map (walkToTopmostMaster master 8) := by
  have hdot : '.' ∈ ip.text.toList := by
    have h : '.' ∈ (toString ".").toList := by decide
    simp [Ipv4Addr.text, h]
  have hne : ∀ s : String, '.' ∉ s.toList → ip.text ≠ s := fun s hs heq => hs (heq ▸ hdot)
  have hhost : peerHost ip.text = ip.text := by
    unfold peerHost
    rw [Text.rsplitOnce_eq_none.2 (colon_not_mem_text ip)]
  unfold mgmtIfaceForPeer
  rw [if_neg, hhost]
  rw [String.isEmpty_iff, not_or]
  exact ⟨hne "" (by decide), hne "unknown" (by decide)⟩

/-- **Unflagged changes.** They leave the management link and its masters alone or, if it is
unknown, the topology. -/
theorem classifyRisk_eq_none (prev next : NetworkConfig) :
    (∀ m, classifyRisk prev next (some m) = none → MgmtKept prev next m) ∧
      (classifyRisk prev next none = none →
        next.bonds = prev.bonds ∧ next.bridges = prev.bridges ∧ next.vlans = prev.vlans) ∧
      ∀ (routeDev master : String → Option String) (ip : Ipv4Addr),
        mgmtIfaceForPeer routeDev master ip.text =
          (routeDev ip.text).map (walkToTopmostMaster master 8) :=
  ⟨fun _ => mgmtKept_of_classifyRisk, eq_of_classifyRisk_unknown, mgmtIfaceForPeer_text⟩

def bridged (address : String) : NetworkConfig where
  interfaces := [{ name := "eth0" }]
  bridges := [{ name := "br0", members := ["eth0"],
                ipv4 := { method := .static, addresses := [address] } }]

theorem classifyRisk_bridged :
    MgmtKept (bridged "10.0.0.2/24") { bridged "10.0.0.2/24" with dns := ["10.0.0.1"] } "eth0" :=
  (classifyRisk_eq_none _ _).1 "eth0" (by decide)

/-- Unflagged: a new address where the link is unknown or a bridge, and a VLAN that is the link, the
MTU of a bridge, an entry that is new, and a member that leaves. An IPv6 address is looked up without
its tail. -/
theorem classifyRisk_unflagged :
    (classifyRisk { interfaces := [{ name := "eth0", ipv4 := { method := .dhcp } }] }
        { interfaces := [{ name := "eth0" }] } none = none) ∧
      (classifyRisk (bridged "10.0.0.2/24") (bridged "10.0.0.3/24") (some "br0") = none ∧
        (bridged "10.0.0.2/24").bridges.map (fun b => (b.name, b.ipv4)) ≠
          (bridged "10.0.0.3/24").bridges.map (fun b => (b.name, b.ipv4))) ∧
      classifyRisk { vlans := [{ parent := "eth0", vlanId := 7, ipv4 := { method := .dhcp } }] }
        { vlans := [{ parent := "eth0", vlanId := 7 }] } (some "eth0.7") = none ∧
      classifyRisk { bridges := [{ name := "br0" }] }
        { bridges := [{ name := "br0", mtu := some 1280 }] } (some "br0") = none ∧
      classifyRisk {} { interfaces := [{ name := "eth0", enabled := false }] } (some "eth0") = none ∧
      classifyRisk { bridges := [{ name := "br0", members := ["eth0"] }] }
        { bridges := [{ name := "br0" }] } (some "eth0") = none ∧
      peerHost "fd00::7" = "fd00:" := by
  decide

end Nasty.Network
