import Mathlib.Data.List.Forall2
import Nasty.Network.Prepare

/-!
# Inherited L3 settings

A bridge that asks for `inherit` gets the settings of its first member that has any: those of the
previous configuration, else those the kernel shows. `Carries` says which these are, and
`resolveInheritOne_inherits` that the search finds them. Bonds may ask as well, and are left as
they are.
-/

namespace Nasty.Network

open Option

variable {members : List String}

section Members

variable (prev : NetworkConfig) (live : LiveTopology) (v6 : Bool) (member : String) (c : IpConfig)

/-- DHCP, static addresses or, for IPv6, SLAAC in the member's previous entry. -/
def Configured : Prop :=
  ∃ iface, prev.interfaces.find? (·.name = member) = some iface ∧
    let ip := if v6 then iface.ipv6 else iface.ipv4
    (ip.method = .dhcp ∧ c = { method := .dhcp }) ∨
      (ip.method = .static ∧ ip.addresses ≠ [] ∧ c = ip) ∨
      (ip.method = .slaac ∧ v6 ∧ c = { method := .slaac })

def Shown : Prop :=
  if ¬ v6 ∧ live.isDhcpManagedV4 member then c = { method := .dhcp }
  else live.addrs member v6 ≠ [] ∧
    c = ⟨.static, live.addrs member v6, live.defaultVia member v6⟩

def Carries : Prop :=
  Configured prev v6 member c ∨ (∀ c', ¬ Configured prev v6 member c') ∧ Shown live v6 member c

/-- The settings of the first member that has any; without one, L3 is disabled. -/
def Inherits (members : List String) : Prop :=
  (∃ before m after, members = before ++ m :: after ∧
    (∀ n ∈ before, ∀ c', ¬ Carries prev live v6 n c') ∧ Carries prev live v6 m c) ∨
  (∀ m ∈ members, ∀ c', ¬ Carries prev live v6 m c') ∧ c = { method := .disabled }

variable {prev live v6 member c}

theorem inheritFromPrev_eq_some :
    inheritFromPrev prev v6 member = some c ↔ Configured prev v6 member c := by
  unfold inheritFromPrev Configured
  rw [bind_eq_bind, bind_eq_some_iff]
  refine exists_congr fun iface => and_congr_right fun _ => ?_
  dsimp only
  generalize (if v6 then iface.ipv6 else iface.ipv4) = ip
  cases hmethod : ip.method <;> simp [eq_comm]

theorem inheritFromLive_eq_some :
    inheritFromLive live v6 member = some c ↔ Shown live v6 member c := by
  unfold inheritFromLive Shown
  split_ifs with hlease haddrs
  · rw [some.injEq, eq_comm]
  · rw [and_iff_right haddrs, some.injEq, eq_comm]
  · simp [haddrs]

theorem inherit_eq_some :
    (inheritFromPrev prev v6 member).or (inheritFromLive live v6 member) = some c ↔
      Carries prev live v6 member c := by
  rw [or_eq_some_iff, eq_none_iff_forall_ne_some]
  simp only [ne_eq, inheritFromPrev_eq_some, inheritFromLive_eq_some, Carries]

theorem resolveInheritOne_inherits (members : List String) :
    Inherits prev live v6 (resolveInheritOne members prev live v6) members := by
  have hnone (m : String) : (inheritFromPrev prev v6 m).or (inheritFromLive live v6 m) = none ↔
      ∀ c', ¬ Carries prev live v6 m c' := by
    simp only [eq_none_iff_forall_ne_some, ne_eq, inherit_eq_some]
  unfold resolveInheritOne
  cases hfind : members.findSome? fun member =>
      (inheritFromPrev prev v6 member).or (inheritFromLive live v6 member) with
  | none => exact .inr ⟨fun m hm => (hnone m).1 (List.findSome?_eq_none_iff.1 hfind m hm), rfl⟩
  | some c =>
    obtain ⟨before, m, after, hmembers, hm, hbefore⟩ := List.findSome?_eq_some_iff.1 hfind
    exact .inl ⟨before, m, after, hmembers, fun n hn => (hnone n).1 (hbefore n hn),
      inherit_eq_some.1 hm⟩

theorem Inherits.method_ne (h : Inherits prev live v6 c members) : c.method ≠ .inherit := by
  rcases h with ⟨_, m, _, _, _, ⟨iface, _, h⟩ | ⟨_, h⟩⟩ | ⟨_, rfl⟩
  · rcases h with ⟨_, rfl⟩ | ⟨h, _, rfl⟩ | ⟨_, _, rfl⟩ <;> simp_all
  · unfold Shown at h
    split_ifs at h <;> simp_all
  · simp

end Members

def Settles (prev : NetworkConfig) (live : LiveTopology) (v6 : Bool) (members : List String)
    (old new : IpConfig) : Prop :=
  if old.method = .inherit then Inherits prev live v6 new members else new = old

variable {prev : NetworkConfig} {live : LiveTopology} {v6 : Bool} {old new : IpConfig}

variable (prev live) in
theorem resolve_settles : Settles prev live v6 members old
    (if old.method = .inherit then resolveInheritOne members prev live v6 else old) := by
  unfold Settles
  split_ifs
  · exact resolveInheritOne_inherits members
  · rfl

theorem Settles.method_ne (h : Settles prev live v6 members old new) : new.method ≠ .inherit := by
  unfold Settles at h
  split_ifs at h with hold
  · exact h.method_ne
  · rwa [h]

theorem resolveInherit_method_ne (config : NetworkConfig) :
    ∀ b ∈ (resolveInherit config prev live).bridges,
      b.ipv4.method ≠ .inherit ∧ b.ipv6.method ≠ .inherit := by
  intro b hb
  obtain ⟨bridge, -, rfl⟩ := List.mem_map.1 hb
  exact ⟨(resolve_settles prev live).method_ne, (resolve_settles prev live).method_ne⟩

theorem resolveInherit_eq_self {config : NetworkConfig}
    (h : ∀ b ∈ config.bridges, b.ipv4.method ≠ .inherit ∧ b.ipv6.method ≠ .inherit) :
    resolveInherit config prev live = config := by
  unfold resolveInherit
  rw [List.map_congr_left (g := id) fun b hb => ?_, List.map_id]
  rw [if_neg (h b hb).1, if_neg (h b hb).2]
  rfl

/-- **Inherited settings.** Resolution settles every `inherit`, once and for all, exactly if no bond
asks for it. -/
theorem inherit_resolved_iff (config prev : NetworkConfig) (live : LiveTopology)
    (liveIfaces : List LiveInterface) :
    ((∀ b ∈ (resolved config prev live liveIfaces).bridges,
        b.ipv4.method ≠ .inherit ∧ b.ipv6.method ≠ .inherit) ∧
      (∀ b ∈ (resolved config prev live liveIfaces).bonds,
        b.ipv4.method ≠ .inherit ∧ b.ipv6.method ≠ .inherit) ∧
      (∃ bridges, resolveInherit config prev live = { config with bridges } ∧
        List.Forall₂ (fun b b' => b' = { b with ipv4 := b'.ipv4, ipv6 := b'.ipv6 } ∧
          Settles prev live false b.members b.ipv4 b'.ipv4 ∧
          Settles prev live true b.members b.ipv6 b'.ipv6) config.bridges bridges) ∧
      resolveInherit (resolveInherit config prev live) prev live =
        resolveInherit config prev live) ↔
    ∀ b ∈ config.bonds, b.ipv4.method ≠ .inherit ∧ b.ipv6.method ≠ .inherit := by
  constructor
  · exact fun h => h.2.1
  refine fun h => ⟨resolveInherit_method_ne config, h, ⟨_, rfl, ?_⟩,
    resolveInherit_eq_self (resolveInherit_method_ne config)⟩
  rw [List.forall₂_map_right_iff, List.forall₂_same]
  exact fun b _ => ⟨rfl, resolve_settles prev live, resolve_settles prev live⟩

/-- A bond over one interface asks to inherit; the update is accepted, and the request stays. -/
theorem bond_inherits :
    let bond : BondConfig := ⟨"bond0", ["eth0"], .lacp, inheritIp, {}, none, true⟩
    let config : NetworkConfig := { interfaces := [{ name := "eth0" }], bonds := [bond] }
    checkUpdate config {} none {} [] = .ok () ∧ (resolved config {} {} []).bonds = [bond] := by
  decide

end Nasty.Network
