import Nasty.Firewall.Restrictions

/-!
# What every operation keeps

Over every run of operations, whichever of their steps fail. No operation closes the rule of the
WebUI (`webui_stays_open`). The two state files hold the restrictions and the custom rules that are
in force, unless a rename and the rollback after it both failed (`policy_durable`).
-/

namespace Nasty.Firewall

open List Lts

variable {rules : List FirewallRule} {rule : FirewallRule} {c c' : FirewallConfig} {op : Op}
  {staged : Option StagedFile} {w w' start : World} {e : Event} {es : List Event}
  {args : InitArgs} {listeners : ListenerPorts} {service : String} {f : FirewallRule → FirewallRule}

/-- A step commits what was planned or nothing, and only a failed rename with a failed rollback
leaves the file behind. -/
theorem step_cases (hstep : Step w e w') :
    (w'.config = w.config ∧ w'.files = w.files) ∨
    ∃ staged, e.op.plan w.config = .commit w'.config staged ∧
      (w'.files = w.files.commit w'.config staged ∨
        e.answers.rename.isSome ∧ e.answers.rollback.error?.isSome) := by
  have heffect := effect e.op e.answers w
  rw [show (e.op.run e.answers w).2 = w' from hstep] at heffect
  generalize (e.op.run e.answers w).1 = r at heffect
  cases heffect with
  | none => exact .inl ⟨rfl, rfl⟩
  | transaction hplan hcommitted =>
    cases hcommitted with
    | kept | restored => exact .inl ⟨rfl, rfl⟩
    | stored => exact .inr ⟨_, hplan, .inl rfl⟩
    | unstored _ hrename hrollback => exact .inr ⟨_, hplan, .inr ⟨hrename, hrollback⟩⟩

theorem config_of_initialized (h : Initialized args listeners w) :
    w.config = args.candidate w.files listeners := by
  obtain ⟨a, w₀, hrun⟩ := h
  have hcommitted := committed a (args.candidate w₀.files listeners) none w₀
  rw [show w₀.commitCandidate a _ none = _ from hrun] at hcommitted
  cases hcommitted
  rfl

/-! ## The WebUI -/

/-- A rule of another service, or one of the WebUI that lets something in. -/
def FirewallRule.Reaches (rule : FirewallRule) : Prop :=
  rule.service = "webui" → rule.active = true ∧ rule.ports ≠ []

def WebuiOpen (rules : List FirewallRule) : Prop :=
  "webui" ∈ rules.map (·.service) ∧ ∀ rule ∈ rules, rule.Reaches

theorem WebuiOpen.modify {q : FirewallRule → Bool} (h : WebuiOpen rules)
    (hservice : ∀ rule, (f rule).service = rule.service)
    (hf : ∀ rule, q rule → rule.Reaches → (f rule).Reaches) :
    WebuiOpen (rules.modifyFirst q f) := by
  refine ⟨by rw [map_modifyFirst hservice]; exact h.1, fun rule hmem => ?_⟩
  obtain hrule | ⟨rule, hrule, hq, rfl⟩ := mem_modifyFirst hmem
  · exact h.2 rule hrule
  · exact hf rule hq (h.2 rule hrule)

theorem WebuiOpen.other (h : WebuiOpen rules) (hservice : service ≠ "webui")
    (hf : ∀ rule, (f rule).service = rule.service) :
    WebuiOpen (rules.modifyFirst (·.service = service) f) := by
  refine h.modify hf fun rule hrule _ hwebui => absurd ?_ hservice
  rw [← of_decide_eq_true hrule, ← hf rule, hwebui]

theorem WebuiOpen.add (h : WebuiOpen rules) (hrule : rule.Reaches) :
    WebuiOpen (rules ++ [rule]) := by
  refine ⟨by simp [h.1], fun rule' hrule' => ?_⟩
  obtain hrule' | hrule' := mem_append.1 hrule'
  · exact h.2 rule' hrule'
  · exact mem_singleton.1 hrule' ▸ hrule

theorem applyRestrictions_ne_nil {ports : List PortSpec} (h : ports ≠ [])
    (sources ifaces : List String) : applyRestrictions ports sources ifaces ≠ [] := by
  unfold applyRestrictions
  split_ifs with hnone
  · exact h
  · obtain ⟨p, hp⟩ := exists_mem_of_ne_nil ports h
    obtain ⟨p', hp'⟩ := exists_mem_of_ne_nil _ (restricted_ne_nil (b := p) hnone)
    exact ne_nil_of_mem (mem_flatMap.2 ⟨p, hp, hp'⟩)

theorem WebuiOpen.replaceRulePorts {r : FirewallRestrictions} (h : WebuiOpen rules)
    (hservice : service ≠ "webui") (ports : List PortSpec) :
    WebuiOpen (replaceRulePorts r service ports rules).2 := by
  obtain ⟨rule, -, hrules⟩ | ⟨-, hrules⟩ := replaceRulePorts_cases r service ports rules
  · rw [hrules]
    exact h.other hservice fun _ => rfl
  · rw [hrules]
    exact h.add fun hwebui => absurd hwebui hservice

theorem WebuiOpen.setRuleActive {ports : List PortSpec} {active : Bool} (h : WebuiOpen c.rules)
    (hservice : service ≠ "webui")
    (hplan : setRuleActive service ports active c = .commit c' staged) : WebuiOpen c'.rules := by
  unfold Firewall.setRuleActive at hplan
  split_ifs at hplan
  split at hplan
  · split_ifs at hplan
    cases hplan
    exact h.other hservice fun _ => rfl
  · cases hplan
    exact h.add fun hwebui => absurd hwebui hservice

theorem name_ne_webui (proto : Protocol) : proto.name ≠ "webui" :=
  name_ne (fromName_eq_none "webui" (by simp)) proto

theorem WebuiOpen.setProtocolStates (states : List (Protocol × Bool))
    (acc : Bool × List FirewallRule) (h : WebuiOpen acc.2) :
    WebuiOpen (states.foldl setProtocolState acc).2 := by
  induction states generalizing acc with
  | nil => exact h
  | cons state states ih =>
    refine ih _ ?_
    unfold setProtocolState
    split
    · split_ifs
      · exact h.other (name_ne_webui state.1) fun _ => rfl
      · exact h
    · exact h

theorem WebuiOpen.plan (h : WebuiOpen c.rules) (hplan : op.plan c = .commit c' staged) :
    WebuiOpen c'.rules := by
  cases op with
  | openProtocol proto | closeProtocol proto => exact h.setRuleActive (name_ne_webui proto) hplan
  | openRdma | closeRdma | openDc | closeDc => exact h.setRuleActive (by decide) hplan
  | setProtocolStates states =>
    have hstates := WebuiOpen.setProtocolStates states (false, c.rules) h
    grind [Op.plan, Firewall.setProtocolStates]
  | setPublishedAppPorts => grind [Op.plan, setPublishedAppPorts]
  | setWebuiPorts https http =>
    simp only [Op.plan, Firewall.setWebuiPorts] at hplan
    split_ifs at hplan
    cases hplan
    refine h.modify (fun _ => rfl) fun rule _ hrule hwebui => ⟨(hrule hwebui).1, ?_⟩
    exact applyRestrictions_ne_nil (by simp [webuiPorts]) _ _
  | setRestriction listeners service sources ifaces =>
    simp only [Op.plan, Firewall.setRestriction] at hplan
    split at hplan <;> cases hplan
    refine h.modify (fun _ => rfl) fun rule hq hrule hwebui => ⟨(hrule hwebui).1, ?_⟩
    -- the ports are recovered from the first rule of the WebUI
    obtain rfl : service = "webui" := (of_decide_eq_true hq).symm.trans hwebui
    obtain ⟨rule, hmem, hservice⟩ := mem_map.1 h.1
    obtain ⟨found, hfound⟩ := exists_find? hmem hservice
    rw [hfound]
    have hports := (h.2 found (mem_of_find?_eq_some hfound) (service_of_find? hfound)).2
    obtain ⟨p, hp⟩ := exists_mem_of_ne_nil _ hports
    exact applyRestrictions_ne_nil
      (ne_nil_of_mem (mem_keepFirst.2 (mem_map_of_mem (f := (·.bare)) hp))) sources ifaces
  | setServicePorts proto ports =>
    have hports := h.replaceRulePorts (r := c.restrictions) (name_ne_webui proto) ports
    grind [Op.plan, setServicePorts]
  | setPortalPorts iscsiPorts nvmeofPorts =>
    have hiscsi := h.replaceRulePorts (r := c.restrictions) (name_ne_webui .iscsi) iscsiPorts
    have hnvmeof := hiscsi.replaceRulePorts (r := c.restrictions) (name_ne_webui .nvmeof)
      nvmeofPorts
    grind [Op.plan, setPortalPorts]
  | addCustomRule | updateCustomRule | removeCustomRule =>
    grind [Op.plan, addCustomRule, updateCustomRule, removeCustomRule]

theorem webuiOpen_of_initialized (h : Initialized args listeners w) : WebuiOpen w.config.rules := by
  rw [config_of_initialized h]
  refine (WebuiOpen.replaceRulePorts ?_ (name_ne_webui .iscsi) _).replaceRulePorts
    (name_ne_webui .nvmeof) _
  refine ⟨by simp [InitArgs.services, InitArgs.pushed], fun rule hrule => ?_⟩
  obtain ⟨⟨service, ports, active⟩, hpushed, rfl⟩ := mem_map.1 hrule
  rintro (rfl : service = "webui")
  simp only [InitArgs.pushed, mem_append, mem_singleton, mem_map] at hpushed
  rcases hpushed with ((hwebui | ⟨state, -, hstate⟩) | hrdma) | hdc
  · cases hwebui
    exact ⟨rfl, applyRestrictions_ne_nil (by simp [ListenerPorts.ports, webuiPorts]) _ _⟩
  · exact absurd (congrArg (·.1) hstate) (name_ne_webui state.1)
  · grind
  · grind

/-- **No operation closes the WebUI.** After every run there is a rule for it, and each such rule is
active and has ports. -/
theorem webui_stays_open (hinit : Initialized args listeners start) (hrun : Run Step start es w) :
    "webui" ∈ w.config.rules.map (·.service) ∧
      ∀ rule ∈ w.config.rules, rule.service = "webui" → rule.active = true ∧ rule.ports ≠ [] := by
  refine hrun.inv (I := fun w => WebuiOpen w.config.rules) (webuiOpen_of_initialized hinit) ?_
  intro w e w' h hstep
  obtain ⟨hconfig, -⟩ | ⟨_, hplan, -⟩ := step_cases hstep
  · rwa [hconfig]
  · exact h.plan hplan

theorem webui_stays_open_moved :
    let w := ((Op.setWebuiPorts 8443 none).run smooth quietWorld).2
    w.config.rules ≠ quietWorld.config.rules ∧ "webui" ∈ w.config.rules.map (·.service) := by
  have hstep : Step quietWorld ⟨.setWebuiPorts 8443 none, smooth⟩ _ := rfl
  exact ⟨by decide, (webui_stays_open initialized_quietWorld (.snoc .nil hstep)).1⟩

/-! ## The state files -/

/-- What an initialization would take from the files is in force. -/
def Durable (w : World) : Prop :=
  w.files.restrictions.getD ⟨fun _ => none, fun _ => none⟩ = w.config.restrictions ∧
    w.files.custom.getD [] = w.config.custom

theorem plan_staged (h : op.plan c = .commit c' staged) :
    (staged = some .restrictions ∨ c'.restrictions = c.restrictions) ∧
      (staged = some .custom ∨ c'.custom = c.custom) := by
  cases op <;> grind [Op.plan, setRuleActive, setProtocolStates, setPublishedAppPorts,
    setWebuiPorts, setRestriction, setServicePorts, setPortalPorts, addCustomRule,
    updateCustomRule, removeCustomRule]

/-- **The policy in force is the one on disk,** unless a rename has failed together with its
rollback. -/
theorem policy_durable (hinit : Initialized args listeners start)
    (hrun : Run (fun w e w' => Step w e w' ∧
      ¬ (e.answers.rename.isSome ∧ e.answers.rollback.error?.isSome)) start es w)
    (args' : InitArgs) (listeners' : ListenerPorts) :
    (args'.candidate w.files listeners').restrictions = w.config.restrictions ∧
      (args'.candidate w.files listeners').custom = w.config.custom := by
  refine hrun.inv (I := Durable) ?_ ?_
  · rw [Durable, config_of_initialized hinit]
    exact ⟨rfl, rfl⟩
  rintro w e w' ⟨hrestrictions, hcustom⟩ ⟨hstep, hundone⟩
  obtain ⟨hconfig, hfiles⟩ | ⟨staged, hplan, hfiles⟩ := step_cases hstep
  · rw [Durable, hconfig, hfiles]
    exact ⟨hrestrictions, hcustom⟩
  · have hstaged := plan_staged hplan
    rcases staged with _ | (_ | _) <;> grind [Durable, Files.commit]

theorem policy_durable_plex :
    (quietArgs.candidate ((Op.addCustomRule plexInput "7").run smooth quietWorld).2.files
      ⟨443, some 80⟩).custom = [plexInput.rule "7"] := by
  have hstep : Step quietWorld ⟨.addCustomRule plexInput "7", smooth⟩ _ := rfl
  exact (policy_durable initialized_quietWorld (.snoc .nil ⟨hstep, by decide⟩) quietArgs _).2

end Nasty.Firewall
