import Nasty.Firewall.Restrictions

/-!
# Custom rules and the ports of services

A custom rule is refused when it overlaps a port that a service owns, whether the service is
active or not. The check is made when the custom rule is added or edited. An operation that gives
ports to a service afterwards does not look at the custom rules, so that the two stay apart exactly
as long as every operation gives services only ports that no custom rule has (`Op.Apart`).
-/

namespace Nasty.Firewall

open Lts List

def Apart (custom : List CustomRule) (ports : List PortSpec) : Prop :=
  ∀ r ∈ custom, ∀ p ∈ ports, ¬ p.Meets r.transport r.fromPort r.toPort

def NoOverlap (c : FirewallConfig) : Prop := ∀ rule ∈ c.rules, Apart c.custom rule.ports

def Op.Apart (c : FirewallConfig) (op : Op) : Prop :=
  ∀ g ∈ op.grants c, Firewall.Apart c.custom g.2

/-- The same for the ports that initialization gives; those of the portals replace the pushed ones.
-/
structure InitArgs.Apart (args : InitArgs) (listeners : ListenerPorts)
    (custom : List CustomRule) : Prop where
  pushed : ∀ s ∈ args.pushed listeners, s.1 ≠ Protocol.iscsi.name → s.1 ≠ Protocol.nvmeof.name →
    Firewall.Apart custom s.2.1
  iscsiPorts : Firewall.Apart custom args.iscsiPorts
  nvmeofPorts : Firewall.Apart custom args.nvmeofPorts

instance {custom : List CustomRule} {ports : List PortSpec} : Decidable (Apart custom ports) :=
  inferInstanceAs (Decidable (∀ _ ∈ _, ∀ _ ∈ _, ¬ _))

instance {c : FirewallConfig} : Decidable (NoOverlap c) :=
  inferInstanceAs (Decidable (∀ _ ∈ _, _))

variable {custom : List CustomRule} {ports ports' : List PortSpec} {r : FirewallRestrictions}
  {rules : List FirewallRule} {rule : FirewallRule} {service : String} {c c' : FirewallConfig}
  {op : Op} {grants : List (String × List PortSpec)} {args : InitArgs} {listeners : ListenerPorts}

/-! ## Restricting ports -/

theorem Apart.of_bare (h : Apart custom ports)
    (hbare : ∀ p ∈ ports', ∃ q ∈ ports, q.bare = p.bare) : Apart custom ports' := by
  intro r hr p hp hmeets
  obtain ⟨q, hq, heq⟩ := hbare p hp
  -- Whether an entry meets a range does not depend on its conditions.
  have hbare : p.bare.Meets r.transport r.fromPort r.toPort := hmeets
  rw [← heq] at hbare
  exact h r hr q hq hbare

theorem apart_applyRestrictions {sources ifaces : List String} :
    Apart custom (applyRestrictions ports sources ifaces) ↔ Apart custom ports := by
  unfold applyRestrictions
  split_ifs with hnone
  · rfl
  constructor
  · intro h
    refine h.of_bare fun b hb => ?_
    obtain ⟨p, hp⟩ := exists_mem_of_ne_nil _ (restricted_ne_nil (b := b) hnone)
    exact ⟨p, mem_flatMap.2 ⟨b, hb, hp⟩, bare_of_mem_restricted hnone hp⟩
  intro h
  refine h.of_bare fun p hp => ?_
  obtain ⟨b, hb, hp⟩ := mem_flatMap.1 hp
  exact ⟨b, hb, (bare_of_mem_restricted hnone hp).symm⟩

theorem Apart.basePorts (h : Apart custom ports) : Apart custom (basePorts ports) := by
  refine h.of_bare fun p hp => ?_
  obtain ⟨q, hq, rfl⟩ := mem_map.1 (mem_keepFirst.1 hp)
  exact ⟨q, hq, rfl⟩

/-! ## Giving ports to services -/

theorem mem_give_of_ne (h : rule ∈ rules) (hne : rule.service ∉ grants.map (·.1)) :
    rule ∈ give r grants rules := by
  induction grants generalizing rules with
  | nil => exact h
  | cons g grants ih =>
    rw [map_cons, mem_cons, not_or] at hne
    exact ih (mem_replaceRulePorts_of_ne h hne.1) hne.2

theorem apart_give (h : ∀ rule ∈ rules, Apart custom rule.ports)
    (hnodup : (grants.map (·.1)).Nodup) :
    (∀ rule ∈ give r grants rules, Apart custom rule.ports) ↔ ∀ g ∈ grants, Apart custom g.2 := by
  induction grants generalizing rules with
  | nil => simpa [give] using h
  | cons g grants ih =>
  rw [map_cons, nodup_cons] at hnodup
  have hgiven (hg : Apart custom g.2) :
      ∀ rule ∈ (replaceRulePorts r g.1 g.2 rules).2, Apart custom rule.ports := by
    intro rule hrule
    rcases mem_replaceRulePorts hrule with hrule | howned
    · exact h rule hrule
    · rw [(Prod.mk.inj howned).2]
      exact apart_applyRestrictions.2 hg
  rw [forall_mem_cons]
  constructor
  · intro hall
    have hg : Apart custom g.2 := by
      obtain ⟨rule, hrule, howned⟩ := exists_replaceRulePorts r g.1 g.2 rules
      obtain ⟨hservice, hports⟩ := Prod.mk.inj howned
      have hmem : rule ∈ give r grants (replaceRulePorts r g.1 g.2 rules).2 :=
        mem_give_of_ne hrule (hservice ▸ hnodup.1)
      have hapart := hall rule hmem
      rw [hports] at hapart
      exact apart_applyRestrictions.1 hapart
    exact ⟨hg, (ih (hgiven hg) hnodup.2).1 hall⟩
  · rintro ⟨hg, hgrants⟩
    exact (ih (hgiven hg) hnodup.2).2 hgrants

theorem nodup_grants (c : FirewallConfig) (op : Op) : ((op.grants c).map (·.1)).Nodup := by
  have hnew (service : String) (ports : List PortSpec) :
      ((newRule c service ports).map (·.1)).Nodup := by
    unfold newRule
    split_ifs
    · exact nodup_nil
    · exact nodup_singleton _
  cases op with
  | openProtocol | closeProtocol | openRdma | closeRdma | openDc | closeDc => exact hnew _ _
  | setWebuiPorts | setServicePorts => exact nodup_singleton _
  | setPortalPorts => exact show [Protocol.iscsi.name, Protocol.nvmeof.name].Nodup by decide
  | _ => exact nodup_nil

/-- From a policy without overlaps, a change keeps it so exactly if it gives services only ports
that no custom rule meets. -/
theorem noOverlap_change (h : NoOverlap c) (hchange : Change op c c') :
    NoOverlap c' ↔ op.Apart c := by
  cases hchange with
  | granted howned _ hcustom =>
    have hports (rules : List FirewallRule) : (∀ rule ∈ rules, Apart c.custom rule.ports) ↔
        ∀ o ∈ rules.map (·.owned), Apart c.custom o.2 := by
      rw [forall_mem_map]
      rfl
    unfold NoOverlap
    rw [hcustom, hports, howned, ← hports]
    exact apart_give h (nodup_grants c op)
  | restricted hop hports hrules _ hcustom =>
    subst hop
    refine iff_of_true (fun rule hrule => ?_) nofun
    rw [hrules] at hrule
    rw [hcustom]
    rcases mem_modifyFirst hrule with hrule | ⟨old, hold, hservice, rfl⟩
    · exact h rule hrule
    · obtain ⟨found, hfind⟩ := exists_find? hold (of_decide_eq_true hservice)
      rw [hports found hfind]
      exact apart_applyRestrictions.2 (h found (mem_of_find?_eq_some hfind)).basePorts
  | customized hgrants hrules _ hcustom =>
    refine iff_of_true (fun rule hrule r hr p hp => ?_) ?_
    · rw [hrules] at hrule
      rcases hcustom r hr with hr | hnone
      · exact h rule hrule r hr p hp
      · exact servicePortConflict_eq_none.1 hnone rule hrule p hp
    · unfold Op.Apart
      rw [hgrants]
      exact nofun

/-! ## Initialization -/

theorem ports_of_replaceRulePorts (hnames : (rules.map (·.service)).Nodup)
    (h : rule ∈ (replaceRulePorts r service ports rules).2) (hservice : rule.service = service) :
    rule.ports = r.apply service ports := by
  obtain ⟨given, hgiven, howned⟩ := exists_replaceRulePorts r service ports rules
  obtain rfl := inj_on_of_nodup_map (nodup_replaceRulePorts hnames) h hgiven
    (hservice.trans (Prod.mk.inj howned).1.symm)
  exact (Prod.mk.inj howned).2

theorem apart_portals (hnames : (rules.map (·.service)).Nodup) :
    (∀ rule ∈ (replaceRulePorts r Protocol.nvmeof.name ports'
        (replaceRulePorts r Protocol.iscsi.name ports rules).2).2, Apart custom rule.ports) ↔
      (∀ rule ∈ rules, rule.service ≠ Protocol.iscsi.name →
        rule.service ≠ Protocol.nvmeof.name → Apart custom rule.ports) ∧
      Apart custom ports ∧ Apart custom ports' := by
  constructor
  · intro h
    obtain ⟨iscsi, hiscsi, hiscsiOwned⟩ :=
      exists_replaceRulePorts r Protocol.iscsi.name ports rules
    obtain ⟨nvmeof, hnvmeof, hnvmeofOwned⟩ := exists_replaceRulePorts r Protocol.nvmeof.name ports'
      (replaceRulePorts r Protocol.iscsi.name ports rules).2
    obtain ⟨hiscsiService, hiscsiPorts⟩ := Prod.mk.inj hiscsiOwned
    refine ⟨fun rule hrule hneIscsi hneNvmeof => ?_, ?_, ?_⟩
    · exact h rule (mem_replaceRulePorts_of_ne (mem_replaceRulePorts_of_ne hrule hneIscsi)
        hneNvmeof)
    · have hne : iscsi.service ≠ Protocol.nvmeof.name := by
        rw [hiscsiService]
        decide
      have hapart := h iscsi (mem_replaceRulePorts_of_ne hiscsi hne)
      rw [hiscsiPorts] at hapart
      exact apart_applyRestrictions.1 hapart
    · have hapart := h nvmeof hnvmeof
      rw [(Prod.mk.inj hnvmeofOwned).2] at hapart
      exact apart_applyRestrictions.1 hapart
  · rintro ⟨hrules, hports, hports'⟩ rule hrule
    by_cases hnvmeof : rule.service = Protocol.nvmeof.name
    · rw [ports_of_replaceRulePorts (nodup_replaceRulePorts hnames) hrule hnvmeof]
      exact apart_applyRestrictions.2 hports'
    have hrule := (mem_replaceRulePorts hrule).resolve_right fun h => hnvmeof (Prod.mk.inj h).1
    by_cases hiscsi : rule.service = Protocol.iscsi.name
    · rw [ports_of_replaceRulePorts hnames hrule hiscsi]
      exact apart_applyRestrictions.2 hports
    have hrule := (mem_replaceRulePorts hrule).resolve_right fun h => hiscsi (Prod.mk.inj h).1
    exact hrules rule hrule hiscsi hnvmeof

theorem noOverlap_initialized {w : World} (hprotocols : (args.enabledProtocols.map (·.1)).Nodup)
    (h : Initialized args listeners w) :
    NoOverlap w.config ↔ args.Apart listeners w.config.custom := by
  obtain ⟨-, files, hconfig⟩ := initialized_spec h
  rw [hconfig]
  refine (apart_portals (nodup_services hprotocols)).trans
    ⟨fun ⟨hrules, hiscsi, hnvmeof⟩ => ⟨?_, hiscsi, hnvmeof⟩,
    fun hapart => ⟨?_, hapart.iscsiPorts, hapart.nvmeofPorts⟩⟩
  · intro s hs hneIscsi hneNvmeof
    exact apart_applyRestrictions.1 (hrules _ (mem_map_of_mem hs) hneIscsi hneNvmeof)
  · intro rule hrule hneIscsi hneNvmeof
    obtain ⟨s, hs, rfl⟩ := mem_map.1 hrule
    exact apart_applyRestrictions.2 (hapart.pushed s hs hneIscsi hneNvmeof)

/-- **Custom rules apart.** No custom rule meets a service port as long as the file and every
operation give none that it meets, and no longer. -/
theorem custom_rules_apart {start : World} (hprotocols : (args.enabledProtocols.map (·.1)).Nodup)
    (hinit : Initialized args listeners start) :
    (NoOverlap start.config ↔ args.Apart listeners start.config.custom) ∧
    (∀ es w, args.Apart listeners start.config.custom →
      Run (fun w e w' => Step w e w' ∧ e.op.Apart w.config) start es w → NoOverlap w.config) ∧
    ∀ w op a w', NoOverlap w.config → Op.run op a w = (.ok (), w') →
      (NoOverlap w'.config ↔ op.Apart w.config) := by
  have hstart := noOverlap_initialized hprotocols hinit
  refine ⟨hstart, fun es w hapart hrun => ?_, fun w op a w' h hok => ?_⟩
  · refine hrun.inv (I := fun w => NoOverlap w.config) (hstart.2 hapart) fun t e u ht hstep => ?_
    rcases change_of_step hstep.1 with hsame | hchange
    · rw [hsame]
      exact ht
    · exact (noOverlap_change ht hchange).2 hstep.2
  · exact noOverlap_change h (change_of_ok hok)

def ldapInput : CustomRuleInput := ⟨"directory", .tcp, 389, 389, none, none, true⟩

theorem custom_rules_apart_ldap :
    let w := ((Op.addCustomRule ldapInput "7").run smooth quietWorld).2
    NoOverlap w.config ∧
      (NoOverlap (Op.openDc.run smooth w).2.config ↔ Op.openDc.Apart w.config) := by
  intro w
  have hall := custom_rules_apart (by decide) initialized_quietWorld
  have hrun : Run (fun w e w' => Step w e w' ∧ e.op.Apart w.config) quietWorld
      ([] ++ [⟨.addCustomRule ldapInput "7", smooth⟩]) w := .snoc .nil ⟨rfl, nofun⟩
  have hapart : quietArgs.Apart ⟨443, some 80⟩ quietWorld.config.custom :=
    hall.1.1 (by decide +kernel)
  have hw := hall.2.1 _ w hapart hrun
  exact ⟨hw, hall.2.2 w .openDc smooth _ hw rfl⟩

/-- A custom rule for the port of a role that is not set up yet, and then the role. -/
theorem dc_opens_on_custom_port :
    ∃ w, Run Step quietWorld
        ([] ++ [⟨.addCustomRule ldapInput "7", smooth⟩] ++ [⟨.openDc, smooth⟩]) w ∧
      ¬ NoOverlap w.config :=
  ⟨_, .snoc (.snoc .nil rfl) rfl, by decide +kernel⟩

end Nasty.Firewall
