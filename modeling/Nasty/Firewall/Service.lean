import Nasty.Firewall.Rules
import Nasty.Lib.Lts

/-!
# The firewall service

Every operation computes a candidate policy from the policy in memory (`Plan`) and commits it in
one transaction: the rules are checked and applied by `nft`, then the staged file is renamed, then
memory takes the candidate. When the rename fails, the previous rules are applied again; if that
fails too, memory takes the candidate after all, since the kernel holds it.

So the kernel's table is the rendering of the policy in memory after every operation
(`live_rules`), whichever of these steps fail.
-/

namespace Nasty.Firewall

open Lts

/-! ## Rendering -/

def transportStr : Transport → String
  | .tcp => "tcp"
  | .udp => "udp"

def saddrClause (src : String) : String :=
  match ipFamily ((Text.split '/' src.toList).headD []) with
  | some .v6 => s!"ip6 saddr {src}"
  | _ => s!"ip saddr {src}"

def conditions (iface source : Option String) : List String :=
  (iface.map fun iface => s!"iifname \"{iface}\"").toList ++ (source.map saddrClause).toList

def acceptLine (conditions : List String) (comment : String) : String :=
  "        " ++ String.intercalate " " conditions ++ s!" accept # {comment}\n"

def renderPort (service : String) (p : PortSpec) : String :=
  let proto := transportStr p.transport
  let dport :=
    match p.toPort with
    | some high => s!"{proto} dport {p.port}-{high}"
    | none => s!"{proto} dport {p.port}"
  acceptLine (conditions p.iface p.source ++ [dport]) service

def portRange (low high : ℕ) : String := if low = high then s!"{low}" else s!"{low}-{high}"

def renderCustomInput (rule : CustomRule) : String :=
  acceptLine (conditions rule.iface rule.source ++
    [s!"{transportStr rule.transport} dport {portRange rule.fromPort rule.toPort}"])
    s!"custom:{rule.id}"

def renderCustomForward (rule : CustomRule) : String :=
  acceptLine (["ct direction original", "ct status dnat"] ++ conditions rule.iface rule.source ++
    [s!"meta l4proto {transportStr rule.transport}",
      s!"ct original proto-dst {portRange rule.fromPort rule.toPort}"])
    s!"custom:{rule.id}"

def eqIgnoreAsciiCase (a b : String) : Bool :=
  a.toList.map Char.toLower = b.toList.map Char.toLower

def renderPublished (p : PublishedAppPort) : Option String :=
  let proto :=
    if eqIgnoreAsciiCase p.transport "tcp" then some "tcp"
    else if eqIgnoreAsciiCase p.transport "udp" then some "udp"
    else none
  proto.map fun proto =>
    s!"        ct direction original ct status dnat meta l4proto {proto} " ++
      s!"ct original proto-dst {p.hostPort} accept # app-published\n"

def inputHeader : List String :=
  ["table inet nasty \x7b\n",
    "    chain dhcp_relay \x7b \x7d\n",
    "    chain input \x7b\n",
    "        type filter hook input priority 0; policy drop;\n",
    "        ct state established,related accept\n",
    "        ct state invalid drop\n",
    "        iif lo accept\n",
    "        # ICMP/ICMPv6 — always allow\n",
    "        ip protocol icmp accept\n",
    "        ip6 nexthdr icmpv6 accept\n",
    "        # DHCPv6 client\n",
    "        udp dport 546 accept\n",
    "        jump dhcp_relay\n"]

def forwardHeader : List String :=
  ["    \x7d\n",
    "    chain forward \x7b\n",
    "        type filter hook forward priority -10; policy accept;\n",
    "        # Explicitly allowed Docker-published host ports\n"]

def forwardFooter : List String :=
  ["        ct direction original ct status dnat drop\n", "    \x7d\n", "\x7d\n"]

@[irreducible] def renderRulesetWithPublished (c : FirewallConfig) : String :=
  String.join (inputHeader ++
    (c.rules.filter (·.active)).flatMap (fun rule => rule.ports.map (renderPort rule.service)) ++
    (c.custom.filter (·.enabled)).map renderCustomInput ++
    forwardHeader ++ c.published.filterMap renderPublished ++
    (c.custom.filter (·.enabled)).map renderCustomForward ++ forwardFooter)

/-! ## Transactions -/

/-- The table `inet nasty`: the rules of a policy and the chain of the DHCP relay. -/
structure Kernel where
  ruleset : String
  relay : String

structure Files where
  restrictions : Option FirewallRestrictions
  custom : Option (List CustomRule)

structure World where
  config : FirewallConfig
  kernel : Kernel
  files : Files

/-- The policy of the DHCP relay, and the errors of `nft --check` and of `nft`. -/
structure NftAnswers where
  policy : Except String String
  check : Option String
  apply : Option String

structure Answers where
  stage : Option String
  nft : NftAnswers
  rename : Option String
  rollback : NftAnswers

def NftAnswers.error? (a : NftAnswers) : Option String :=
  match a.policy, a.check, a.apply with
  | .error e, _, _ => some e
  | .ok _, some e, _ => some e
  | .ok _, none, e => e

/-- `nft` applies a batch as a whole or not at all. -/
def applyNftablesWith (a : NftAnswers) (c : FirewallConfig) (kernel : Kernel) :
    Except String Unit × Kernel :=
  match a.error? with
  | some e => (.error e, kernel)
  | none => (.ok (), ⟨renderRulesetWithPublished c, a.policy.toOption.getD ""⟩)

inductive StagedFile
  | restrictions
  | custom

def Files.commit (files : Files) (candidate : FirewallConfig) : Option StagedFile → Files
  | none => files
  | some .restrictions => { files with restrictions := some candidate.restrictions }
  | some .custom => { files with custom := some candidate.custom }

def World.commitCandidate (a : Answers) (candidate : FirewallConfig) (staged : Option StagedFile)
    (w : World) : Except String Unit × World :=
  match applyNftablesWith a.nft candidate w.kernel with
  | (.error e, kernel) => (.error e, { w with kernel })
  | (.ok (), kernel) =>
    match staged.bind fun _ => a.rename with
    | some persistError =>
      match applyNftablesWith a.rollback w.config kernel with
      | (.error rollbackError, kernel) =>
        (.error (s!"persist firewall state: {persistError}; live rollback also failed: " ++
          s!"{rollbackError}; in-memory state reflects the live candidate"),
          { w with config := candidate, kernel })
      | (.ok (), kernel) =>
        (.error s!"persist firewall state: {persistError}; previous live rules restored",
          { w with kernel })
    | none =>
      (.ok (), { config := candidate, kernel, files := w.files.commit candidate staged })

/-! ## Operations -/

inductive Plan
  | unchanged
  | refused (error : String)
  | commit (candidate : FirewallConfig) (staged : Option StagedFile)

def setRuleActive (service : String) (basePorts : List PortSpec) (active : Bool)
    (c : FirewallConfig) : Plan :=
  if basePorts = [] then .unchanged
  else
    match c.rules.find? (·.service = service) with
    | some rule =>
      if rule.active = active then .unchanged
      else
        let rules := c.rules.modifyFirst (·.service = service) fun rule => { rule with active }
        .commit { c with rules } none
    | none =>
      let rule := { service, ports := c.restrictions.apply service basePorts, active }
      .commit { c with rules := c.rules ++ [rule] } none

def setProtocolState (acc : Bool × List FirewallRule) (state : Protocol × Bool) :
    Bool × List FirewallRule :=
  match acc.2.find? (·.service = state.1.name) with
  | some rule =>
    if rule.active ≠ state.2 then
      (true, acc.2.modifyFirst (·.service = state.1.name) fun rule =>
        { rule with active := state.2 })
    else acc
  | none => acc

def setProtocolStates (states : List (Protocol × Bool)) (c : FirewallConfig) : Plan :=
  let (changed, rules) := states.foldl setProtocolState (false, c.rules)
  if changed then .commit { c with rules } none else .unchanged

def PublishedAppPort.compare (a b : PublishedAppPort) : Ordering :=
  (Ord.compare a.transport b.transport).then
    ((Ord.compare a.hostPort b.hostPort).then (Ord.compare a.app b.app))

def setPublishedAppPorts (published : List PublishedAppPort) (c : FirewallConfig) : Plan :=
  let sorted := published.mergeSort fun a b => (a.compare b).isLE
  let published := sorted.destutter fun a b =>
    ¬ (a.transport = b.transport ∧ a.hostPort = b.hostPort ∧ a.app = b.app)
  if c.published = published then .unchanged else .commit { c with published } none

def setWebuiPorts (https : ℕ) (http : Option ℕ) (c : FirewallConfig) : Plan :=
  if c.rules.any (·.service = "webui") then
    let ports := c.restrictions.apply "webui" (webuiPorts https http)
    .commit { c with rules := c.rules.modifyFirst (·.service = "webui") ({ · with ports }) } none
  else .refused "WebUI firewall rule is not initialized"

def basePorts (ports : List PortSpec) : List PortSpec := (ports.map (·.bare)).keepFirst

/-- `HashMap::insert`, or `remove` for the empty list. -/
def recordRestriction (service : String) (values : List String)
    (map : String → Option (List String)) : String → Option (List String) :=
  Function.update map service (if values = [] then none else some values)

/-- The checks of `set_restriction` before it takes the lock. `listeners` is what
`crate::webui::load` answers. -/
def checkRestriction (listeners : Except String ListenerPorts) (service : String)
    (sources ifaces : List String) : Except String (List PortSpec) := do
  .checkAll (fun source =>
    .refuse (! validSource source) s!"invalid source (expected an IP or CIDR): {source}") sources
  .checkAll (fun iface =>
    .refuse (! validIface iface) s!"invalid interface name: {iface}") ifaces
  if service = "webui" then listeners.map (·.ports)
  else if service = "rdma" then .ok rdmaPorts
  else if service = "dc" then .ok dcPorts
  else
    match Protocol.fromName service with
    | some proto => .ok (portsForProtocol proto)
    | none => .error s!"unknown service: {service}"

def setRestriction (listeners : Except String ListenerPorts) (service : String)
    (sources ifaces : List String) (c : FirewallConfig) : Plan :=
  match checkRestriction listeners service sources ifaces with
  | .error e => .refused e
  | .ok defaultPorts =>
    let base := ((c.rules.find? (·.service = service)).map fun rule => basePorts rule.ports).getD
      defaultPorts
    let restrictions :=
      { services := recordRestriction service sources c.restrictions.services
        interfaces := recordRestriction service ifaces c.restrictions.interfaces }
    let ports := applyRestrictions base sources ifaces
    .commit
      { c with
        restrictions, rules := c.rules.modifyFirst (·.service = service) ({ · with ports }) }
      (some .restrictions)

def setServicePorts (proto : Protocol) (ports : List PortSpec) (c : FirewallConfig) : Plan :=
  let (changed, rules) := replaceRulePorts c.restrictions proto.name ports c.rules
  if changed then .commit { c with rules } none else .unchanged

def setPortalPorts (iscsiPorts nvmeofPorts : List PortSpec) (c : FirewallConfig) : Plan :=
  let (iscsiChanged, rules) :=
    replaceRulePorts c.restrictions Protocol.iscsi.name iscsiPorts c.rules
  let (nvmeofChanged, rules) :=
    replaceRulePorts c.restrictions Protocol.nvmeof.name nvmeofPorts rules
  if iscsiChanged ∨ nvmeofChanged then .commit { c with rules } none else .unchanged

def overlapError (input : CustomRuleInput) (owner : String) : String :=
  s!"{transportStr input.transport}/{input.fromPort}-{input.toPort} overlaps ports managed by " ++
    s!"{owner} — enable {owner} to open them"

def refuseOverlap (input : CustomRuleInput) (rules : List FirewallRule) : Except String Unit :=
  match servicePortConflict rules input.transport input.fromPort input.toPort with
  | some owner => .error (overlapError input owner)
  | none => .ok ()

/-- The checks that both custom-rule operations make on their input; `others` are the rules it may
not repeat. -/
def checkCustom (input : CustomRuleInput) (rules : List FirewallRule) (others : List CustomRule) :
    Except String Unit := do
  validateCustomInput input
  refuseOverlap input rules
  .refuse (others.any fun rule => sameRule rule input) "an identical custom rule already exists"

def addCustomRule (input : CustomRuleInput) (uuid : String) (c : FirewallConfig) : Plan :=
  match checkCustom input c.rules c.custom with
  | .error e => .refused e
  | .ok () => .commit { c with custom := c.custom ++ [input.rule uuid] } (some .custom)

def updateCustomRule (id : String) (input : CustomRuleInput) (c : FirewallConfig) : Plan :=
  match checkCustom input c.rules (c.custom.filter (·.id ≠ id)) with
  | .error e => .refused e
  | .ok () =>
    if c.custom.any (·.id = id) then
      let custom := c.custom.modifyFirst (·.id = id) fun rule => input.rule rule.id
      .commit { c with custom } (some .custom)
    else .refused s!"custom rule not found: {id}"

def removeCustomRule (id : String) (c : FirewallConfig) : Plan :=
  let custom := c.custom.filter (·.id ≠ id)
  if custom.length = c.custom.length then .refused s!"custom rule not found: {id}"
  else .commit { c with custom } (some .custom)

inductive Op
  | openProtocol (proto : Protocol)
  | closeProtocol (proto : Protocol)
  | openRdma
  | closeRdma
  | openDc
  | closeDc
  | setProtocolStates (states : List (Protocol × Bool))
  | setPublishedAppPorts (published : List PublishedAppPort)
  | setWebuiPorts (https : ℕ) (http : Option ℕ)
  | setRestriction (listeners : Except String ListenerPorts) (service : String)
      (sources ifaces : List String)
  | setServicePorts (proto : Protocol) (ports : List PortSpec)
  | setPortalPorts (iscsiPorts nvmeofPorts : List PortSpec)
  | addCustomRule (input : CustomRuleInput) (uuid : String)
  | updateCustomRule (id : String) (input : CustomRuleInput)
  | removeCustomRule (id : String)

def Op.plan (c : FirewallConfig) : Op → Plan
  | openProtocol proto => setRuleActive proto.name (portsForProtocol proto) true c
  | closeProtocol proto => setRuleActive proto.name (portsForProtocol proto) false c
  | openRdma => setRuleActive "rdma" rdmaPorts true c
  | closeRdma => setRuleActive "rdma" rdmaPorts false c
  | openDc => setRuleActive "dc" dcPorts true c
  | closeDc => setRuleActive "dc" dcPorts false c
  | setProtocolStates states => Firewall.setProtocolStates states c
  | setPublishedAppPorts published => Firewall.setPublishedAppPorts published c
  | setWebuiPorts https http => Firewall.setWebuiPorts https http c
  | setRestriction listeners service sources ifaces =>
    Firewall.setRestriction listeners service sources ifaces c
  | setServicePorts proto ports => Firewall.setServicePorts proto ports c
  | setPortalPorts iscsiPorts nvmeofPorts => Firewall.setPortalPorts iscsiPorts nvmeofPorts c
  | addCustomRule input uuid => Firewall.addCustomRule input uuid c
  | updateCustomRule id input => Firewall.updateCustomRule id input c
  | removeCustomRule id => Firewall.removeCustomRule id c

def Op.run (op : Op) (a : Answers) (w : World) : Except String Unit × World :=
  match op.plan w.config with
  | .unchanged => (.ok (), w)
  | .refused e => (.error e, w)
  | .commit candidate staged =>
    match staged.bind fun _ => a.stage with
    | some e => (.error e, w)
    | none => w.commitCandidate a candidate staged

/-! ## Initialization -/

structure InitArgs where
  enabledProtocols : List (Protocol × Bool)
  rdmaEnabled : Bool
  dcEnabled : Bool
  iscsiPorts : List PortSpec
  nvmeofPorts : List PortSpec
  published : List PublishedAppPort

/-- The rules that `init` pushes: service, ports and whether it is active. -/
def InitArgs.pushed (args : InitArgs) (listeners : ListenerPorts) :
    List (String × List PortSpec × Bool) :=
  let protocols := args.enabledProtocols.filter fun state => portsForProtocol state.1 ≠ []
  [("webui", listeners.ports, true)] ++
    protocols.map (fun state => (state.1.name, portsForProtocol state.1, state.2)) ++
    (if args.rdmaEnabled then [("rdma", rdmaPorts, true)] else []) ++
    (if args.dcEnabled then [("dc", dcPorts, true)] else [])

def InitArgs.services (args : InitArgs) (r : FirewallRestrictions) (listeners : ListenerPorts) :
    List FirewallRule :=
  (args.pushed listeners).map fun (service, ports, active) =>
    { service, ports := r.apply service ports, active }

def InitArgs.candidate (args : InitArgs) (files : Files) (listeners : ListenerPorts) :
    FirewallConfig :=
  let restrictions := files.restrictions.getD ⟨fun _ => none, fun _ => none⟩
  let rules := args.services restrictions listeners
  let rules := (replaceRulePorts restrictions Protocol.iscsi.name args.iscsiPorts rules).2
  let rules := (replaceRulePorts restrictions Protocol.nvmeof.name args.nvmeofPorts rules).2
  { rules, restrictions, custom := files.custom.getD [], published := args.published }

/-- `readError` is the error met when a state file cannot be read or parsed. -/
def InitArgs.run (args : InitArgs) (readError : Option String)
    (listeners : Except String ListenerPorts) (a : Answers) (w : World) :
    Except String Unit × World :=
  match readError, listeners with
  | some e, _ => (.error e, w)
  | none, .error e => (.error e, w)
  | none, .ok listeners => w.commitCandidate a (args.candidate w.files listeners) none

def Initialized (args : InitArgs) (listeners : ListenerPorts) (w : World) : Prop :=
  ∃ a w₀, args.run none (.ok listeners) a w₀ = (.ok (), w)

structure Event where
  op : Op
  answers : Answers

def Step (w : World) (e : Event) (w' : World) : Prop := (e.op.run e.answers w).2 = w'

/-! ## What an operation does -/

variable {op : Op} {a : Answers} {w w' : World} {candidate : FirewallConfig}
  {staged : Option StagedFile}

theorem applyNftablesWith_cases (a : NftAnswers) (c : FirewallConfig) (kernel : Kernel) :
    (∃ e, a.error? = some e ∧ applyNftablesWith a c kernel = (.error e, kernel)) ∨
    ∃ relay, a.error? = none ∧
      applyNftablesWith a c kernel = (.ok (), ⟨renderRulesetWithPublished c, relay⟩) := by
  unfold applyNftablesWith
  cases a.error? with
  | some e => exact .inl ⟨e, rfl, rfl⟩
  | none => exact .inr ⟨_, rfl, rfl⟩

/-- How a transaction ends: without effect, with the rules in memory applied again, or with the
candidate in force, stored or not. -/
inductive Committed (a : Answers) (candidate : FirewallConfig) (staged : Option StagedFile)
    (w : World) : Except String Unit → World → Prop
  | kept {e} : Committed a candidate staged w (.error e) w
  | restored {e relay} : Committed a candidate staged w (.error e)
      { w with kernel := ⟨renderRulesetWithPublished w.config, relay⟩ }
  | stored {relay} : Committed a candidate staged w (.ok ())
      { config := candidate
        kernel := ⟨renderRulesetWithPublished candidate, relay⟩
        files := w.files.commit candidate staged }
  | unstored {e relay} (hstaged : staged.isSome) (hrename : a.rename.isSome)
      (hrollback : a.rollback.error?.isSome) : Committed a candidate staged w (.error e)
      { w with config := candidate, kernel := ⟨renderRulesetWithPublished candidate, relay⟩ }

theorem committed (a : Answers) (candidate : FirewallConfig) (staged : Option StagedFile)
    (w : World) :
    Committed a candidate staged w (w.commitCandidate a candidate staged).1
      (w.commitCandidate a candidate staged).2 := by
  unfold World.commitCandidate
  obtain ⟨e, -, happly⟩ | ⟨relay, -, happly⟩ := applyNftablesWith_cases a.nft candidate w.kernel
  · rw [happly]
    exact .kept
  rw [happly]
  rcases hpersist : staged.bind fun _ => a.rename with _ | persistError
  · exact .stored
  obtain ⟨file, hfile, hrename⟩ := Option.bind_eq_some_iff.1 hpersist
  obtain ⟨e, hback, hrollback⟩ | ⟨relay', -, hrollback⟩ := applyNftablesWith_cases a.rollback
    w.config ⟨renderRulesetWithPublished candidate, relay⟩
  · simp only [hrollback]
    exact .unstored (by rw [hfile]; rfl) (by rw [hrename]; rfl) (by rw [hback]; rfl)
  · simp only [hrollback]
    exact .restored

inductive Effect (op : Op) (a : Answers) (w : World) : Except String Unit → World → Prop
  | none {r} (hok : r = .ok () → op.plan w.config = .unchanged) : Effect op a w r w
  | transaction {r w' candidate staged} (hplan : op.plan w.config = .commit candidate staged)
      (hcommitted : Committed a candidate staged w r w') : Effect op a w r w'

theorem effect (op : Op) (a : Answers) (w : World) :
    Effect op a w (op.run a w).1 (op.run a w).2 := by
  unfold Op.run
  rcases hplan : op.plan w.config with _ | e | ⟨candidate, staged⟩
  · exact .none fun _ => hplan
  · exact .none nofun
  rcases hstage : staged.bind fun _ => a.stage with _ | e
  · simp only [hstage]
    exact .transaction hplan (committed a candidate staged w)
  · simp only [hstage]
    exact .none nofun

/-! ## The live rules -/

def Live (w : World) : Prop := w.kernel.ruleset = renderRulesetWithPublished w.config

variable {r : Except String Unit}

theorem Live.committed (h : Live w) (hcommitted : Committed a candidate staged w r w') :
    Live w' := by
  cases hcommitted with
  | kept => exact h
  | restored | stored | unstored => rfl

theorem Live.effect (h : Live w) (heffect : Effect op a w r w') : Live w' := by
  cases heffect with
  | none => exact h
  | transaction _ hcommitted => exact h.committed hcommitted

theorem initialized_spec {args : InitArgs} {listeners : ListenerPorts}
    (h : Initialized args listeners w) :
    Live w ∧ ∃ files, w.config = args.candidate files listeners := by
  obtain ⟨a, w₀, hrun⟩ := h
  have hcommitted := Firewall.committed a (args.candidate w₀.files listeners) none w₀
  replace hrun : w₀.commitCandidate a (args.candidate w₀.files listeners) none = (.ok (), w) := hrun
  rw [hrun] at hcommitted
  cases hcommitted
  exact ⟨rfl, w₀.files, rfl⟩

/-- **Live rules.** The kernel holds the policy in memory, and a failed operation changes neither
unless the rollback fails too. -/
theorem live_rules {args : InitArgs} {listeners : ListenerPorts} {start : World}
    {es : List Event} (hinit : Initialized args listeners start) (hrun : Run Step start es w) :
    w.kernel.ruleset = renderRulesetWithPublished w.config ∧
      ∀ (op : Op) (a : Answers) (error : String) (w' : World), op.run a w = (.error error, w') →
        (w'.config = w.config ∧ w'.kernel.ruleset = w.kernel.ruleset ∧ w'.files = w.files) ∨
        ∃ candidate staged, op.plan w.config = .commit candidate (some staged) ∧
          a.rename.isSome ∧ a.rollback.error?.isSome ∧ w'.config = candidate ∧
          w'.kernel.ruleset = renderRulesetWithPublished candidate ∧ w'.files = w.files := by
  have hlive : Live w := hrun.inv (initialized_spec hinit).1 fun t e u ht hstep => by
    rw [← hstep]
    exact ht.effect (Firewall.effect e.op e.answers t)
  refine ⟨hlive, fun op a error w' h => ?_⟩
  have heffect := Firewall.effect op a w
  rw [h] at heffect
  cases heffect with
  | none => exact .inl ⟨rfl, rfl, rfl⟩
  | transaction hplan hcommitted =>
  cases hcommitted with
  | kept => exact .inl ⟨rfl, rfl, rfl⟩
  | restored => exact .inl ⟨rfl, hlive.symm, rfl⟩
  | unstored hstaged hrename hrollback =>
    obtain ⟨file, rfl⟩ := Option.isSome_iff_exists.1 hstaged
    exact .inr ⟨_, file, hplan, hrename, hrollback, rfl, rfl, rfl⟩

def quietArgs : InitArgs where
  enabledProtocols := Protocol.all.map (·, false)
  rdmaEnabled := false
  dcEnabled := false
  iscsiPorts := [tcp 3260]
  nvmeofPorts := [tcp 4420]
  published := []

def applied : NftAnswers := ⟨.ok "", none, none⟩

def smooth : Answers := ⟨none, applied, none, applied⟩

def unpersisted : Answers :=
  ⟨none, applied, some "Is a directory", ⟨.ok "", none, some "nft apply timed out"⟩⟩

def blankWorld : World :=
  ⟨⟨[], ⟨fun _ => none, fun _ => none⟩, [], []⟩, ⟨"", ""⟩, ⟨none, none⟩⟩

def quietWorld : World := (quietArgs.run none (.ok ⟨443, some 80⟩) smooth blankWorld).2

theorem initialized_quietWorld : Initialized quietArgs ⟨443, some 80⟩ quietWorld :=
  ⟨smooth, blankWorld, rfl⟩

def plexInput : CustomRuleInput := ⟨"Plex", .tcp, 32400, 32400, none, none, true⟩

theorem live_rules_unpersisted :
    let w := ((Op.addCustomRule plexInput "7").run unpersisted quietWorld).2
    w.kernel.ruleset = renderRulesetWithPublished w.config ∧
      w.config.custom = [plexInput.rule "7"] ∧ w.files.custom = none := by
  have hrun : Run Step quietWorld ([] ++ [⟨.addCustomRule plexInput "7", unpersisted⟩]) _ :=
    .snoc .nil rfl
  exact ⟨(live_rules initialized_quietWorld hrun).1, by decide +kernel, by decide +kernel⟩

end Nasty.Firewall
