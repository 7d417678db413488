import Nasty.Firewall.Service

/-!
# What operations do to the policy

A successful operation changes the policy in one of three ways (`Change`): it gives ports to
services (`Op.grants`), possibly none, and may switch rules on and off; it restricts a service; or
it changes the custom rules. Whether rules are active does not matter to who owns which ports, so
rules are compared by `FirewallRule.owned`.
-/

namespace Nasty.Firewall

open List

def FirewallRule.owned (rule : FirewallRule) : String × List PortSpec := (rule.service, rule.ports)

def give (r : FirewallRestrictions) (grants : List (String × List PortSpec))
    (rules : List FirewallRule) : List FirewallRule :=
  grants.foldl (fun rules g => (replaceRulePorts r g.1 g.2 rules).2) rules

/-- A service without a rule gets one with these ports when it is switched on or off. -/
def newRule (c : FirewallConfig) (service : String) (ports : List PortSpec) :
    List (String × List PortSpec) :=
  if ports = [] ∨ c.rules.any (·.service = service) then [] else [(service, ports)]

def Op.grants (c : FirewallConfig) : Op → List (String × List PortSpec)
  | openProtocol proto | closeProtocol proto => newRule c proto.name (portsForProtocol proto)
  | openRdma | closeRdma => newRule c "rdma" rdmaPorts
  | openDc | closeDc => newRule c "dc" dcPorts
  | setWebuiPorts https http => [("webui", webuiPorts https http)]
  | setServicePorts proto ports => [(proto.name, ports)]
  | setPortalPorts iscsiPorts nvmeofPorts =>
    [(Protocol.iscsi.name, iscsiPorts), (Protocol.nvmeof.name, nvmeofPorts)]
  | _ => []

/-- The custom rules after an operation: old ones, and one that meets no service port. -/
def CustomFrom (c : FirewallConfig) (custom : List CustomRule) : Prop :=
  ∀ r ∈ custom, r ∈ c.custom ∨
    servicePortConflict c.rules r.transport r.fromPort r.toPort = none

inductive Change (op : Op) (c : FirewallConfig) (c' : FirewallConfig) : Prop
  | granted
      (howned :
        c'.rules.map (·.owned) = (give c.restrictions (op.grants c) c.rules).map (·.owned))
      (hrestrictions : c'.restrictions = c.restrictions) (hcustom : c'.custom = c.custom)
  | restricted {listeners service sources ifaces ports}
      (hop : op = .setRestriction listeners service sources ifaces)
      (hports : ∀ rule, c.rules.find? (·.service = service) = some rule →
        ports = applyRestrictions (basePorts rule.ports) sources ifaces)
      (hrules : c'.rules = c.rules.modifyFirst (·.service = service) ({ · with ports }))
      (hrestrictions : c'.restrictions =
        ⟨recordRestriction service sources c.restrictions.services,
          recordRestriction service ifaces c.restrictions.interfaces⟩)
      (hcustom : c'.custom = c.custom)
  | customized (hgrants : op.grants c = []) (hrules : c'.rules = c.rules)
      (hrestrictions : c'.restrictions = c.restrictions) (hcustom : CustomFrom c c'.custom)

variable {c c' : FirewallConfig} {op : Op} {staged : Option StagedFile} {service : String}
  {ports : List PortSpec} {rules : List FirewallRule} {r : FirewallRestrictions}

variable {rule : FirewallRule}

theorem service_of_find?
    (h : rules.find? (·.service = service) = some rule) : rule.service = service := by
  simpa using find?_some h

theorem exists_find? (h : rule ∈ rules) (hservice : rule.service = service) :
    ∃ found, rules.find? (·.service = service) = some found :=
  Option.isSome_iff_exists.1 (find?_isSome.2 ⟨rule, h, decide_eq_true hservice⟩)

theorem replaceRulePorts_cases (r : FirewallRestrictions) (service : String)
    (ports : List PortSpec) (rules : List FirewallRule) :
    (∃ rule, rules.find? (·.service = service) = some rule ∧
      (replaceRulePorts r service ports rules).2 =
        rules.modifyFirst (·.service = service) ({ · with ports := r.apply service ports })) ∨
    (rules.find? (·.service = service) = none ∧
      (replaceRulePorts r service ports rules).2 =
        rules ++ [{ service, ports := r.apply service ports, active := false }]) := by
  unfold replaceRulePorts
  dsimp only
  rcases hfind : rules.find? (·.service = service) with _ | rule
  · exact .inr ⟨hfind, by simp only [hfind]⟩
  refine .inl ⟨rule, hfind, ?_⟩
  simp only [hfind]
  split_ifs with hports
  · rw [modifyFirst_eq_self_iff.2]
    rw [hfind]
    rintro _ ⟨⟩
    exact hports ▸ rfl
  · rfl

theorem replaceRulePorts_unchanged (h : (replaceRulePorts r service ports rules).1 = false) :
    (replaceRulePorts r service ports rules).2 = rules := by
  unfold replaceRulePorts at h ⊢
  dsimp only at h ⊢
  split at h
  · split_ifs at h ⊢ with hports
    rfl
  · nomatch h

theorem owned_switch {p : FirewallRule → Bool} (active : Bool) (rules : List FirewallRule) :
    (rules.modifyFirst p fun rule => { rule with active }).map (·.owned) = rules.map (·.owned) := by
  apply map_modifyFirst
  exact fun _ => rfl

theorem mem_replaceRulePorts (h : rule ∈ (replaceRulePorts r service ports rules).2) :
    rule ∈ rules ∨ rule.owned = (service, r.apply service ports) := by
  obtain ⟨old, -, hrules⟩ | ⟨-, hrules⟩ := replaceRulePorts_cases r service ports rules <;>
    rw [hrules] at h
  · rcases mem_modifyFirst h with h | ⟨old, -, hservice, rfl⟩
    · exact .inl h
    · exact .inr (congrArg (·, _) (of_decide_eq_true hservice))
  rcases mem_append.1 h with h | h
  · exact .inl h
  · rw [mem_singleton.1 h]
    exact .inr rfl

theorem exists_replaceRulePorts (r : FirewallRestrictions) (service : String)
    (ports : List PortSpec) (rules : List FirewallRule) :
    ∃ rule ∈ (replaceRulePorts r service ports rules).2,
      rule.owned = (service, r.apply service ports) := by
  obtain ⟨old, hfind, hrules⟩ | ⟨-, hrules⟩ := replaceRulePorts_cases r service ports rules
  · rw [hrules]
    refine ⟨_, mem_modifyFirst_of_find? hfind, ?_⟩
    show (old.service, _) = _
    rw [service_of_find? hfind]
  · rw [hrules]
    exact ⟨_, mem_append_right _ (mem_singleton_self _), rfl⟩

theorem mem_replaceRulePorts_of_ne (h : rule ∈ rules) (hne : rule.service ≠ service) :
    rule ∈ (replaceRulePorts r service ports rules).2 := by
  obtain ⟨old, hfind, hrules⟩ | ⟨-, hrules⟩ := replaceRulePorts_cases r service ports rules
  · rw [hrules]
    exact (mem_modifyFirst_of_mem h).resolve_right fun hfind => hne (service_of_find? hfind)
  · rw [hrules]
    exact mem_append_left _ h

def Plan.result (c : FirewallConfig) : Plan → Option FirewallConfig
  | unchanged => some c
  | refused _ => none
  | commit c' _ => some c'

theorem change_of_setRuleActive {active : Bool} (hgrants : op.grants c = newRule c service ports)
    (h : (setRuleActive service ports active c).result c = some c') : Change op c c' := by
  unfold setRuleActive at h
  split_ifs at h with hports
  · cases h
    exact .granted (by rw [hgrants, newRule, if_pos (.inl hports)]; rfl) rfl rfl
  rcases hfind : c.rules.find? (·.service = service) with _ | rule
  · have hnew : ¬ c.rules.any (·.service = service) := by
      simpa using hfind
    rw [hfind] at h
    cases h
    refine .granted ?_ rfl rfl
    rw [hgrants, newRule, if_neg (not_or.2 ⟨hports, hnew⟩)]
    obtain ⟨rule, hrule, -⟩ | ⟨-, hgive⟩ :=
      replaceRulePorts_cases c.restrictions service ports c.rules
    · rw [hfind] at hrule
      nomatch hrule
    · show _ = List.map _ (replaceRulePorts c.restrictions service ports c.rules).2
      rw [hgive, map_append, map_append]
      rfl
  · have hold : c.rules.any (·.service = service) :=
      any_eq_true.2 ⟨rule, mem_of_find?_eq_some hfind,
        decide_eq_true (service_of_find? hfind)⟩
    have hnone : op.grants c = [] := by rw [hgrants, newRule, if_pos (.inr hold)]
    simp only [hfind] at h
    split_ifs at h <;> cases h
    · exact .granted (by rw [hnone]; rfl) rfl rfl
    · exact .granted (by rw [hnone]; exact owned_switch active c.rules) rfl rfl

theorem owned_setProtocolState (acc : Bool × List FirewallRule) (state : Protocol × Bool) :
    (setProtocolState acc state).2.map (·.owned) = acc.2.map (·.owned) := by
  unfold setProtocolState
  split
  · split_ifs
    · exact owned_switch state.2 acc.2
    · rfl
  · rfl

theorem owned_setProtocolStates (states : List (Protocol × Bool)) (acc : Bool × List FirewallRule) :
    (states.foldl setProtocolState acc).2.map (·.owned) = acc.2.map (·.owned) := by
  induction states generalizing acc with
  | nil => rfl
  | cons state states ih => rw [foldl_cons, ih, owned_setProtocolState]

theorem checkCustom_ok {input : CustomRuleInput} {others : List CustomRule}
    (h : checkCustom input c.rules others = .ok ()) :
    servicePortConflict c.rules input.transport input.fromPort input.toPort = none := by
  unfold checkCustom at h
  obtain ⟨-, h⟩ := Except.seq_eq_ok.1 h
  unfold refuseOverlap at h
  split at h
  · nomatch h
  · assumption

theorem change_of_plan (h : (op.plan c).result c = some c') : Change op c c' := by
  cases op with
  | openProtocol | closeProtocol | openRdma | closeRdma | openDc | closeDc =>
    exact change_of_setRuleActive rfl h
  | setProtocolStates states =>
    simp only [Op.plan, setProtocolStates] at h
    split_ifs at h <;> cases h
    · exact .granted (owned_setProtocolStates states (false, c.rules)) rfl rfl
    · exact .granted rfl rfl rfl
  | setPublishedAppPorts published =>
    simp only [Op.plan, setPublishedAppPorts] at h
    split_ifs at h <;> cases h <;> exact .granted rfl rfl rfl
  | setWebuiPorts https http =>
    simp only [Op.plan, setWebuiPorts] at h
    split_ifs at h with hany
    · cases h
      refine .granted ?_ rfl rfl
      obtain ⟨rule, -, hgive⟩ | ⟨hnone, -⟩ :=
        replaceRulePorts_cases c.restrictions "webui" (webuiPorts https http) c.rules
      · exact congrArg _ hgive.symm
      · exact absurd hany (by simpa using hnone)
    · nomatch h
  | setRestriction listeners service sources ifaces =>
    simp only [Op.plan, setRestriction] at h
    split at h
    · nomatch h
    · cases h
      exact .restricted rfl (fun rule hrule => by simp only [hrule]; rfl) rfl rfl rfl
  | setServicePorts proto ports =>
    simp only [Op.plan, setServicePorts] at h
    split_ifs at h with hchanged <;> cases h
    · exact .granted rfl rfl rfl
    · refine .granted ?_ rfl rfl
      exact congrArg _ (replaceRulePorts_unchanged (Bool.eq_false_iff.2 hchanged)).symm
  | setPortalPorts iscsiPorts nvmeofPorts =>
    simp only [Op.plan, setPortalPorts] at h
    split_ifs at h with hchanged <;> cases h
    · exact .granted rfl rfl rfl
    obtain ⟨hiscsi, hnvmeof⟩ := not_or.1 hchanged
    have hsame := replaceRulePorts_unchanged (Bool.eq_false_iff.2 hnvmeof)
    rw [replaceRulePorts_unchanged (Bool.eq_false_iff.2 hiscsi)] at hsame
    refine .granted ?_ rfl rfl
    simp only [Op.grants, give, foldl_cons, foldl_nil]
    rw [replaceRulePorts_unchanged (Bool.eq_false_iff.2 hiscsi), hsame]
  | addCustomRule input uuid =>
    simp only [Op.plan, addCustomRule] at h
    split at h
    · nomatch h
    cases h
    refine .customized rfl rfl rfl fun r hr => ?_
    rcases mem_append.1 hr with hr | hr
    · exact .inl hr
    · rw [mem_singleton.1 hr]
      exact .inr (checkCustom_ok (by assumption))
  | updateCustomRule id input =>
    simp only [Op.plan, updateCustomRule] at h
    split at h
    · nomatch h
    split_ifs at h
    · cases h
      refine .customized rfl rfl rfl fun r hr => ?_
      rcases mem_modifyFirst hr with hr | ⟨old, -, -, rfl⟩
      · exact .inl hr
      · exact .inr (checkCustom_ok (by assumption))
    · nomatch h
  | removeCustomRule id =>
    simp only [Op.plan, removeCustomRule] at h
    split_ifs at h
    · nomatch h
    · cases h
      exact .customized rfl rfl rfl fun r hr => .inl (mem_of_mem_filter hr)

theorem change_of_step {w w' : World} {e : Event} (hstep : Step w e w') :
    w'.config = w.config ∨ Change e.op w.config w'.config := by
  have heffect := effect e.op e.answers w
  rw [hstep] at heffect
  generalize (e.op.run e.answers w).1 = r at heffect
  cases heffect with
  | none => exact .inl rfl
  | transaction hplan hcommitted =>
    cases hcommitted with
    | kept | restored => exact .inl rfl
    | stored | unstored => exact .inr (change_of_plan (by rw [hplan]; rfl))

theorem change_of_ok {w w' : World} {a : Answers} (h : op.run a w = (.ok (), w')) :
    Change op w.config w'.config := by
  have heffect := effect op a w
  rw [h] at heffect
  cases heffect with
  | none hok => exact change_of_plan (by rw [hok rfl]; rfl)
  | transaction hplan hcommitted =>
    cases hcommitted
    exact change_of_plan (by rw [hplan]; rfl)

end Nasty.Firewall
