import Nasty.Firewall.Change

/-!
# Restricted services

A service's rule holds its ports with the recorded sources and interfaces written into them.
Operations that give a service ports expand them anew; `set_restriction` recovers the ports by
taking the conditions away and dropping repetitions. The two directions are inverse to each other
(`basePorts_applyRestrictions`), so that every rule is, in every state, the expansion of ports
without conditions (`Base`), and accepts what these accept from the recorded sources on the
recorded interfaces.
-/

namespace Nasty.Firewall

open Lts List

/-! ## Expanding and recovering ports -/

variable {ports B : List PortSpec} {sources ifaces : List String} {p b : PortSpec}

/-- The conditions that a list stands for: its elements, and none if it is empty. -/
def choices (l : List String) : List (Option String) := if l = [] then [none] else l.map some

theorem exists_choice {q : String → Prop} {l : List String} :
    (∃ o ∈ choices l, ∀ x, o = some x → q x) ↔ l = [] ∨ ∃ x ∈ l, q x := by
  unfold choices
  split_ifs with h <;> simp [h]

theorem choices_ne_nil (l : List String) : choices l ≠ [] := by
  unfold choices
  split_ifs with h <;> simp [h]

section

variable (h : ¬ (sources = [] ∧ ifaces = []))
include h

theorem mem_restricted : p ∈ b.restricted sources ifaces ↔
    ∃ source ∈ choices sources, ∃ iface ∈ choices ifaces, { b with source, iface } = p := by
  unfold PortSpec.restricted choices
  by_cases hsources : sources = []
  · have hifaces : ifaces ≠ [] := fun hifaces => h ⟨hsources, hifaces⟩
    simp [hsources, hifaces]
  · by_cases hifaces : ifaces = [] <;> simp [hsources, hifaces]

theorem bare_of_mem_restricted (hp : p ∈ b.restricted sources ifaces) : p.bare = b.bare := by
  obtain ⟨source, -, iface, -, rfl⟩ := (mem_restricted h).1 hp
  rfl

theorem restricted_ne_nil : b.restricted sources ifaces ≠ [] := by
  obtain ⟨source, hsource⟩ := exists_mem_of_ne_nil _ (choices_ne_nil sources)
  obtain ⟨iface, hiface⟩ := exists_mem_of_ne_nil _ (choices_ne_nil ifaces)
  exact ne_nil_of_mem ((mem_restricted h).2 ⟨source, hsource, iface, hiface, rfl⟩)

end

def Bare (B : List PortSpec) : Prop := ∀ p ∈ B, p.source = none ∧ p.iface = none

theorem Bare.bare_eq (h : Bare B) (hp : p ∈ B) : p.bare = p := by
  obtain ⟨port, toPort, transport, source, iface⟩ := p
  obtain ⟨rfl, rfl⟩ := h _ hp
  rfl

theorem Bare.keepFirst (h : Bare B) : Bare B.keepFirst := fun p hp => h p (mem_keepFirst.1 hp)

/-- Stripping an expansion gives back its ports, without repetitions. -/
theorem basePorts_applyRestrictions (h : Bare B) :
    basePorts (applyRestrictions B sources ifaces) = B.keepFirst := by
  unfold basePorts applyRestrictions
  split_ifs with hnone
  · rw [map_congr_left fun p hp => h.bare_eq hp, map_id']
  rw [map_flatMap]
  refine keepFirst_flatMap (fun b _ => ?_) fun b hb q hq => ?_
  · exact fun hnil => restricted_ne_nil hnone (map_eq_nil_iff.1 hnil)
  · obtain ⟨p, hp, rfl⟩ := mem_map.1 hq
    exact (bare_of_mem_restricted hnone hp).trans (h.bare_eq hb)

/-! ## Packets -/

/-- A packet, with its source address in a type of the reader's choice. -/
structure Packet (α : Type) where
  transport : Transport
  port : ℕ
  source : α
  iface : String

section Packets

variable {α : Type} (inNetwork : String → α → Prop) (pkt : Packet α)

def PortSpec.Covers (p : PortSpec) : Prop :=
  p.transport = pkt.transport ∧ p.port ≤ pkt.port ∧ pkt.port ≤ p.high

def PortSpec.Accepts (p : PortSpec) : Prop :=
  p.Covers pkt ∧ (∀ src, p.source = some src → inNetwork src pkt.source) ∧
    ∀ iface, p.iface = some iface → iface = pkt.iface

def FirewallRule.Accepts (rule : FirewallRule) : Prop :=
  ∃ p ∈ rule.ports, p.Accepts inNetwork pkt

theorem accepts_restricted (hnone : ¬ (sources = [] ∧ ifaces = [])) :
    (∃ p ∈ b.restricted sources ifaces, p.Accepts inNetwork pkt) ↔
      b.Covers pkt ∧ (sources = [] ∨ ∃ src ∈ sources, inNetwork src pkt.source) ∧
        (ifaces = [] ∨ pkt.iface ∈ ifaces) := by
  simp only [mem_restricted hnone]
  rw [← exists_choice, show pkt.iface ∈ ifaces ↔ ∃ i ∈ ifaces, i = pkt.iface by simp,
    ← exists_choice]
  constructor
  · rintro ⟨_, ⟨source, hsource, iface, hiface, rfl⟩, hcovers, hin, hon⟩
    exact ⟨hcovers, ⟨source, hsource, hin⟩, iface, hiface, hon⟩
  · rintro ⟨hcovers, ⟨source, hsource, hin⟩, iface, hiface, hon⟩
    exact ⟨_, ⟨source, hsource, iface, hiface, rfl⟩, hcovers, hin, hon⟩

theorem accepts_applyRestrictions (h : Bare B) :
    (∃ p ∈ applyRestrictions B sources ifaces, p.Accepts inNetwork pkt) ↔
      (∃ b ∈ B, b.Covers pkt) ∧ (sources = [] ∨ ∃ src ∈ sources, inNetwork src pkt.source) ∧
        (ifaces = [] ∨ pkt.iface ∈ ifaces) := by
  unfold applyRestrictions
  split_ifs with hnone
  · have haccepts : ∀ b ∈ B, b.Accepts inNetwork pkt ↔ b.Covers pkt := fun b hb => by
      obtain ⟨hsource, hiface⟩ := h b hb
      simp [PortSpec.Accepts, hsource, hiface]
    simp only [hnone.1, hnone.2, true_or, and_true]
    exact exists_congr fun b => and_congr_right (haccepts b)
  simp only [mem_flatMap]
  constructor
  · rintro ⟨p, ⟨b, hb, hp⟩, haccepts⟩
    obtain ⟨hcovers, hrest⟩ := (accepts_restricted inNetwork pkt hnone).1 ⟨p, hp, haccepts⟩
    exact ⟨⟨b, hb, hcovers⟩, hrest⟩
  · rintro ⟨⟨b, hb, hcovers⟩, hrest⟩
    obtain ⟨p, hp, haccepts⟩ := (accepts_restricted inNetwork pkt hnone).2 ⟨hcovers, hrest⟩
    exact ⟨p, ⟨b, hb, hp⟩, haccepts⟩

end Packets

/-! ## Rules and their bases -/

/-- The rule's ports are the expansion of `B` under the recorded restrictions. -/
structure Base (r : FirewallRestrictions) (rule : FirewallRule) (B : List PortSpec) : Prop where
  bare : Bare B
  ports : rule.ports = applyRestrictions B (r.sources rule.service) (r.ifaces rule.service)

structure BaseInv (r : FirewallRestrictions) (rules : List FirewallRule) : Prop where
  names : (rules.map (·.service)).Nodup
  based : ∀ rule ∈ rules, ∃ B, Base r rule B

variable {r : FirewallRestrictions} {rules rules' : List FirewallRule} {service : String}
  {rule : FirewallRule} {grants : List (String × List PortSpec)} {c c' : FirewallConfig} {op : Op}

theorem Base.owned {rule' : FirewallRule} (h : Base r rule B) (howned : rule'.owned = rule.owned) :
    Base r rule' B := by
  obtain ⟨hservice, hports⟩ := Prod.mk.inj howned
  exact ⟨h.bare, by rw [hports, hservice, h.ports]⟩

theorem BaseInv.owned (h : BaseInv r rules)
    (howned : rules'.map (·.owned) = rules.map (·.owned)) : BaseInv r rules' := by
  constructor
  · have hnames := congrArg (List.map Prod.fst) howned
    rw [map_map, map_map] at hnames
    rw [show rules'.map (·.service) = rules.map (·.service) from hnames]
    exact h.names
  intro rule hrule
  have hmem : rule.owned ∈ rules.map (·.owned) := howned ▸ mem_map_of_mem hrule
  obtain ⟨old, hold, heq⟩ := mem_map.1 hmem
  obtain ⟨B, hB⟩ := h.based old hold
  exact ⟨B, hB.owned heq.symm⟩

theorem service_setPorts {q : FirewallRule → Bool} (ports : List PortSpec)
    (rules : List FirewallRule) :
    (rules.modifyFirst q fun rule => { rule with ports }).map (·.service) =
      rules.map (·.service) := by
  apply map_modifyFirst
  exact fun _ => rfl

theorem nodup_replaceRulePorts (h : (rules.map (·.service)).Nodup) :
    ((replaceRulePorts r service ports rules).2.map (·.service)).Nodup := by
  obtain ⟨old, -, hrules⟩ | ⟨hnone, hrules⟩ := replaceRulePorts_cases r service ports rules
  · rw [hrules, service_setPorts]
    exact h
  rw [hrules, map_append]
  refine List.Pairwise.concat h fun name hname => ?_
  obtain ⟨rule, hrule, rfl⟩ := mem_map.1 hname
  simpa using find?_eq_none.1 hnone rule hrule

theorem BaseInv.replaceRulePorts (h : BaseInv r rules) (hports : Bare ports) :
    BaseInv r (replaceRulePorts r service ports rules).2 := by
  refine ⟨nodup_replaceRulePorts h.names, fun rule hrule => ?_⟩
  rcases mem_replaceRulePorts hrule with hrule | howned
  · exact h.based rule hrule
  · obtain ⟨hservice, hruleports⟩ := Prod.mk.inj howned
    exact ⟨ports, hports, by rw [hruleports, hservice]; rfl⟩

theorem BaseInv.give (h : BaseInv r rules) (hgrants : ∀ g ∈ grants, Bare g.2) :
    BaseInv r (give r grants rules) := by
  induction grants generalizing rules with
  | nil => exact h
  | cons g grants ih =>
    exact ih (h.replaceRulePorts (hgrants g mem_cons_self)) fun g hg =>
      hgrants g (mem_cons_of_mem _ hg)

theorem recordRestriction_self (values : List String) (map : String → Option (List String)) :
    (recordRestriction service values map service).getD [] = values := by
  unfold recordRestriction
  rw [Function.update_self]
  split_ifs with hvalues
  · exact hvalues.symm
  · rfl

theorem recordRestriction_ne {name : String} (hne : name ≠ service) (values : List String)
    (map : String → Option (List String)) : recordRestriction service values map name = map name :=
  Function.update_of_ne hne _ _

theorem BaseInv.restrict (h : BaseInv r rules) (hrule : rule ∈ rules) (hB : Base r rule B)
    (hports : ∀ rule, rules.find? (·.service = service) = some rule →
      ports = applyRestrictions (basePorts rule.ports) sources ifaces) :
    ∃ rule' ∈ rules.modifyFirst (·.service = service) ({ · with ports }),
      rule'.service = rule.service ∧
      ∃ B', Base ⟨recordRestriction service sources r.services,
          recordRestriction service ifaces r.interfaces⟩ rule' B' ∧
        (B' = B ∨ rule.service = service ∧ B' = B.keepFirst) := by
  by_cases hservice : rule.service = service
  · obtain ⟨found, hfind⟩ := exists_find? hrule hservice
    obtain rfl : found = rule := inj_on_of_nodup_map h.names
      (mem_of_find?_eq_some hfind) hrule ((service_of_find? hfind).trans hservice.symm)
    refine ⟨_, mem_modifyFirst_of_find? hfind, rfl, B.keepFirst, ⟨hB.bare.keepFirst, ?_⟩,
      .inr ⟨hservice, rfl⟩⟩
    unfold FirewallRestrictions.sources FirewallRestrictions.ifaces
    simp only [hservice, recordRestriction_self]
    rw [hports found hfind, hB.ports, basePorts_applyRestrictions hB.bare]
  refine ⟨rule, ?_, rfl, B, ⟨hB.bare, ?_⟩, .inl rfl⟩
  · exact (mem_modifyFirst_of_mem hrule).resolve_right fun hfind =>
      hservice (service_of_find? hfind)
  · rw [hB.ports]
    unfold FirewallRestrictions.sources FirewallRestrictions.ifaces
    simp only [recordRestriction_ne hservice]

theorem BaseInv.change (h : BaseInv c.restrictions c.rules) (hchange : Change op c c')
    (hgrants : ∀ g ∈ op.grants c, Bare g.2) : BaseInv c'.restrictions c'.rules := by
  cases hchange with
  | granted howned hrestrictions =>
    rw [hrestrictions]
    exact (h.give hgrants).owned howned
  | restricted _ hports hrules hrestrictions =>
    have hservices : c'.rules.map (·.service) = c.rules.map (·.service) := by
      rw [hrules, service_setPorts]
    have hnames := hservices ▸ h.names
    rw [hrestrictions]
    refine ⟨hnames, fun rule' hrule' => ?_⟩
    -- The rule of the same name before has a base, and so has the one it became.
    have hmem : rule'.service ∈ c.rules.map (·.service) := hservices ▸ mem_map_of_mem hrule'
    obtain ⟨rule, hrule, hservice⟩ := mem_map.1 hmem
    obtain ⟨B, hB⟩ := h.based rule hrule
    obtain ⟨rule'', hrule'', hservice'', B', hB', -⟩ := h.restrict hrule hB hports
    rw [← hrules] at hrule''
    obtain rfl := inj_on_of_nodup_map hnames hrule'' hrule' (hservice''.trans hservice)
    exact ⟨B', hB'⟩
  | customized _ hrules hrestrictions =>
    rw [hrestrictions, hrules]
    exact h

/-! ## Initialization -/

instance : Decidable (Bare B) := inferInstanceAs (Decidable (∀ _ ∈ _, _))

theorem bare_portsForProtocol (proto : Protocol) : Bare (portsForProtocol proto) := by
  cases proto <;> decide

theorem bare_webuiPorts (https : ℕ) (http : Option ℕ) : Bare (webuiPorts https http) := by
  intro p hp
  obtain ⟨port, -, rfl⟩ := mem_map.1 hp
  exact ⟨rfl, rfl⟩

theorem fromName_name (proto : Protocol) : Protocol.fromName proto.name = some proto := by
  cases proto <;> decide

theorem name_injective : Function.Injective Protocol.name := fun a b h => by
  have hb := fromName_name b
  rw [← h, fromName_name] at hb
  exact Option.some.inj hb

theorem fromName_eq_none : ∀ name ∈ ["webui", "rdma", "dc"], Protocol.fromName name = none := by
  decide

theorem name_ne {name : String} (h : Protocol.fromName name = none) (proto : Protocol) :
    proto.name ≠ name := by
  rintro rfl
  rw [fromName_name] at h
  nomatch h

/-- Protocols are given once each, and portals have ports without conditions. -/
structure InitArgs.WellFormed (args : InitArgs) : Prop where
  protocols : (args.enabledProtocols.map (·.1)).Nodup
  iscsiPorts : Bare args.iscsiPorts
  nvmeofPorts : Bare args.nvmeofPorts

variable {args : InitArgs} {listeners : ListenerPorts}

theorem nodup_pushed (listeners : ListenerPorts) (h : (args.enabledProtocols.map (·.1)).Nodup) :
    ((args.pushed listeners).map (·.1)).Nodup := by
  have hprotocols (q : Protocol × Bool → Bool) :
      ((args.enabledProtocols.filter q).map (·.1.name)).Nodup := by
    have hsublist : ((args.enabledProtocols.filter q).map (·.1)).Nodup :=
      h.sublist (filter_sublist.map _)
    have hnames := hsublist.map name_injective
    rwa [map_map] at hnames
  have hothers : ∀ name ∈ ["webui", "rdma", "dc"], ∀ proto : Protocol, proto.name ≠ name :=
    fun name hname => name_ne (fromName_eq_none name hname)
  have hflags : List.Sublist (((if args.rdmaEnabled then [("rdma", rdmaPorts, true)] else []) ++
      if args.dcEnabled then [("dc", dcPorts, true)] else []).map (·.1)) ["rdma", "dc"] := by
    cases args.rdmaEnabled <;> cases args.dcEnabled <;> decide
  unfold InitArgs.pushed
  rw [append_assoc, append_assoc, map_append, map_append, map_map]
  refine nodup_append.2 ⟨nodup_singleton _, nodup_append.2
    ⟨hprotocols _, List.Nodup.sublist hflags (by decide), ?_⟩, ?_⟩
  · intro a ha b hb
    obtain ⟨state, -, rfl⟩ := mem_map.1 ha
    exact hothers b (mem_cons_of_mem _ (hflags.subset hb)) state.1
  intro a ha b hb
  obtain rfl := mem_singleton.1 ha
  rcases mem_append.1 hb with hb | hb
  · obtain ⟨state, -, rfl⟩ := mem_map.1 hb
    exact (hothers "webui" mem_cons_self state.1).symm
  · rintro rfl
    exact absurd (hflags.subset hb) (show "webui" ∉ ["rdma", "dc"] by decide)

theorem bare_pushed : ∀ s ∈ args.pushed listeners, Bare s.2.1 := by
  intro s hs
  simp only [InitArgs.pushed, mem_append, or_assoc] at hs
  rcases hs with hs | hs | hs | hs
  · rw [mem_singleton.1 hs]
    exact bare_webuiPorts _ _
  · obtain ⟨state, -, rfl⟩ := mem_map.1 hs
    exact bare_portsForProtocol _
  all_goals
    split at hs
    · rw [mem_singleton.1 hs]
      decide
    · nomatch hs

theorem nodup_services (h : (args.enabledProtocols.map (·.1)).Nodup) :
    ((args.services r listeners).map (·.service)).Nodup := by
  have hpushed := nodup_pushed listeners h
  unfold InitArgs.services
  rw [map_map]
  exact hpushed

theorem baseInv_services (h : args.WellFormed) : BaseInv r (args.services r listeners) := by
  refine ⟨nodup_services h.protocols, fun rule hrule => ?_⟩
  obtain ⟨s, hs, rfl⟩ := mem_map.1 hrule
  exact ⟨s.2.1, bare_pushed s hs, rfl⟩

theorem baseInv_initialized {w : World} (hargs : args.WellFormed)
    (h : Initialized args listeners w) : BaseInv w.config.restrictions w.config.rules := by
  obtain ⟨-, files, hconfig⟩ := initialized_spec h
  rw [hconfig]
  exact ((baseInv_services hargs).replaceRulePorts hargs.iscsiPorts).replaceRulePorts
    hargs.nvmeofPorts

/-! ## Runs -/

def Op.BarePorts : Op → Prop
  | setServicePorts _ ports => Bare ports
  | setPortalPorts iscsiPorts nvmeofPorts => Bare iscsiPorts ∧ Bare nvmeofPorts
  | _ => True

theorem bare_newRule (hports : Bare ports) : ∀ g ∈ newRule c service ports, Bare g.2 := by
  intro g hg
  unfold newRule at hg
  split_ifs at hg
  · nomatch hg
  · rw [mem_singleton.1 hg]
    exact hports

theorem bare_grants (h : op.BarePorts) : ∀ g ∈ op.grants c, Bare g.2 := by
  cases op with
  | openProtocol proto | closeProtocol proto => exact bare_newRule (bare_portsForProtocol proto)
  | openRdma | closeRdma | openDc | closeDc => exact bare_newRule (by decide)
  | setWebuiPorts https http => exact forall_mem_singleton.2 (bare_webuiPorts https http)
  | setServicePorts proto ports => exact forall_mem_singleton.2 h
  | setPortalPorts iscsiPorts nvmeofPorts =>
    exact forall_mem_cons.2 ⟨h.1, forall_mem_singleton.2 h.2⟩
  | _ => exact nofun

theorem baseInv_run {start w : World} {es : List Event} (hargs : args.WellFormed)
    (hinit : Initialized args listeners start)
    (hrun : Run (fun w e w' => Step w e w' ∧ e.op.BarePorts) start es w) :
    BaseInv w.config.restrictions w.config.rules := by
  refine hrun.inv (I := fun w => BaseInv w.config.restrictions w.config.rules)
    (baseInv_initialized hargs hinit) fun t e u ht hstep => ?_
  rcases change_of_step hstep.1 with hsame | hchange
  · rw [hsame]
    exact ht
  · exact ht.change hchange (bare_grants hstep.2)

/-- **Restrictions.** Each service rule expands ports without conditions under the recorded
restrictions, and a restriction keeps these ports, but for repeated ones of its own service. -/
theorem restrictions_keep_base {start w : World} {es : List Event} (hargs : args.WellFormed)
    (hinit : Initialized args listeners start)
    (hrun : Run (fun w e w' => Step w e w' ∧ e.op.BarePorts) start es w) :
    (∀ rule ∈ w.config.rules, ∃ B, Base w.config.restrictions rule B ∧
      ∀ {α : Type} (inNetwork : String → α → Prop) (pkt : Packet α),
        rule.Accepts inNetwork pkt ↔ (∃ b ∈ B, b.Covers pkt) ∧
          (w.config.restrictions.sources rule.service = [] ∨
            ∃ src ∈ w.config.restrictions.sources rule.service, inNetwork src pkt.source) ∧
          (w.config.restrictions.ifaces rule.service = [] ∨
            pkt.iface ∈ w.config.restrictions.ifaces rule.service)) ∧
    ∀ webui service sources ifaces a w',
      Step w ⟨.setRestriction webui service sources ifaces, a⟩ w' →
      ∀ rule ∈ w.config.rules, ∀ B, Base w.config.restrictions rule B →
        ∃ rule' ∈ w'.config.rules, rule'.service = rule.service ∧
          ∃ B', Base w'.config.restrictions rule' B' ∧
            (B' = B ∨ rule.service = service ∧ B' = B.keepFirst) := by
  have hinv := baseInv_run hargs hinit hrun
  refine ⟨fun rule hrule => ?_, fun webui service sources ifaces a w' hstep rule hrule B hB => ?_⟩
  · obtain ⟨B, hB⟩ := hinv.based rule hrule
    refine ⟨B, hB, fun inNetwork pkt => ?_⟩
    unfold FirewallRule.Accepts
    rw [hB.ports]
    exact accepts_applyRestrictions inNetwork pkt hB.bare
  rcases change_of_step hstep with hsame | hchange
  · rw [hsame]
    exact ⟨rule, hrule, rfl, B, hB, .inl rfl⟩
  cases hchange with
  | granted howned hrestrictions =>
    have hmem : rule.owned ∈ w'.config.rules.map (·.owned) :=
      howned ▸ mem_map_of_mem hrule
    obtain ⟨rule', hrule', heq⟩ := mem_map.1 hmem
    refine ⟨rule', hrule', congrArg Prod.fst heq, B, ?_, .inl rfl⟩
    exact hrestrictions ▸ hB.owned heq
  | restricted hop hports hrules hrestrictions =>
    cases hop
    rw [hrules, hrestrictions]
    exact hinv.restrict hrule hB hports
  | customized _ hrules hrestrictions =>
    exact ⟨rule, hrules ▸ hrule, rfl, B, hrestrictions ▸ hB, .inl rfl⟩

def restrictNfs : Event :=
  ⟨.setRestriction (.ok ⟨443, some 80⟩) "nfs" ["10.0.0.0/8"] ["eth0"], smooth⟩

theorem wellFormed_quietArgs : quietArgs.WellFormed := ⟨by decide, by decide, by decide⟩

theorem restrictions_keep_base_nfs :
    ∃ rule ∈ (restrictNfs.op.run smooth quietWorld).2.config.rules, ∃ B, rule.service = "nfs" ∧
      Base (restrictNfs.op.run smooth quietWorld).2.config.restrictions rule B := by
  have hrun : Run (fun w e w' => Step w e w' ∧ e.op.BarePorts) quietWorld ([] ++ [restrictNfs]) _ :=
    .snoc .nil ⟨rfl, trivial⟩
  have hall := restrictions_keep_base wellFormed_quietArgs initialized_quietWorld hrun
  have hnfs : "nfs" ∈ (restrictNfs.op.run smooth quietWorld).2.config.rules.map (·.service) := by
    decide +kernel
  obtain ⟨rule, hrule, hservice⟩ := mem_map.1 hnfs
  obtain ⟨B, hB, -⟩ := hall.1 rule hrule
  exact ⟨rule, hrule, B, hservice, hB⟩

/-! ### Ports outside the contract -/

def conditional : World :=
  ((Op.setServicePorts .iscsi [{ tcp 3260 with iface := some "eth0" }]).run smooth quietWorld).2

def doubled : World := ((Op.setWebuiPorts 443 (some 443)).run smooth quietWorld).2

def restrictWebui : Op := .setRestriction (.ok ⟨443, some 80⟩) "webui" ["10.0.0.0/8"] []

def twice : World :=
  let args := { quietArgs with enabledProtocols := [(.ssh, true), (.ssh, true)] }
  let start := (args.run none (.ok ⟨443, some 80⟩) smooth blankWorld).2
  ((Op.setRestriction (.ok ⟨443, some 80⟩) "ssh" ["10.0.0.0/8"] []).run smooth start).2

/-- A condition of the port's own, a second rule of the service, and a repeated port that a
restriction takes away. -/
theorem base_broken :
    (∃ rule ∈ conditional.config.rules, ∀ B, ¬ Base conditional.config.restrictions rule B) ∧
    (∃ rule ∈ twice.config.rules, ∀ B, ¬ Base twice.config.restrictions rule B) ∧
    ∃ rule ∈ doubled.config.rules, Base doubled.config.restrictions rule [tcp 443, tcp 443] ∧
      ∀ rule' ∈ (restrictWebui.run smooth doubled).2.config.rules, rule'.service = rule.service →
        ¬ Base (restrictWebui.run smooth doubled).2.config.restrictions rule'
          [tcp 443, tcp 443] := by
  refine ⟨⟨⟨"iscsi", [{ tcp 3260 with iface := some "eth0" }], false⟩, by decide +kernel,
    fun B hB => ?_⟩, ⟨⟨"ssh", [tcp 22], true⟩, by decide +kernel, fun B hB => ?_⟩,
    ⟨"webui", [tcp 443, tcp 443], true⟩, by decide +kernel, ⟨by decide, by decide +kernel⟩,
    fun rule' hrule' hservice hB => ?_⟩
  · obtain rfl : [{ tcp 3260 with iface := some "eth0" }] = B := hB.ports
    exact absurd hB.bare (by decide)
  · have hports : [tcp 22] = applyRestrictions B ["10.0.0.0/8"] [] := hB.ports
    cases B <;> simp [applyRestrictions, PortSpec.restricted, tcp] at hports
  have hone : ∀ rule ∈ (restrictWebui.run smooth doubled).2.config.rules,
      rule.service = "webui" → rule.ports.length = 1 := by decide +kernel
  have hlength := hone rule' hrule' hservice
  have hports : rule'.ports = applyRestrictions [tcp 443, tcp 443] ["10.0.0.0/8"] [] := by
    have hports := hB.ports
    rw [hservice] at hports
    exact hports
  rw [hports] at hlength
  nomatch hlength

end Nasty.Firewall
