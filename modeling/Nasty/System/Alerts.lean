import Nasty.Lib.Lists

/-!
# Alert rules and occurrences

`AlertService` holds the rules and, for each alert that is active, its occurrence with the
acknowledgement. A call on the rules edits them in memory and then saves the state; an
acknowledgement is made on a copy, which takes the place of the state once it is saved. The result
is `keptIfFailed_iff`: what a failed call leaves behind, for all four calls.
-/

namespace Nasty.System.Alerts

inductive AlertMetric
  | fsUsagePercent | cpuLoadPercent | memoryUsagePercent | diskTemperature | smartHealth
  | smartAttribute | swapUsagePercent | bcachefsDegraded | bcachefsDeviceError
  | bcachefsDeviceState | bcachefsIoErrors | bcachefsScrubErrors | bcachefsReconcileStalled
  | rootDiskFreeGb | bootDiskFreeMb | certificateExpiryDays | certificateRenewalFailure
  | backupFailure | kernelErrors

inductive AlertCondition | above | below | equals

inductive AlertSeverity | warning | critical

/-- A double, as its bits. -/
abbrev F64 := UInt64

structure AlertRule where
  id : String
  name : String
  enabled : Bool
  metric : AlertMetric
  condition : AlertCondition
  threshold : F64
  severity : AlertSeverity

structure AlertRuleUpdate where
  name : Option String
  enabled : Option Bool
  threshold : Option F64
  severity : Option AlertSeverity

def AlertRuleUpdate.apply (update : AlertRuleUpdate) (rule : AlertRule) : AlertRule :=
  { rule with
    name := update.name.getD rule.name
    enabled := update.enabled.getD rule.enabled
    threshold := update.threshold.getD rule.threshold
    severity := update.severity.getD rule.severity }

structure ActiveAlert where
  ruleId : String
  ruleName : String
  severity : AlertSeverity
  metric : AlertMetric
  message : String
  currentValue : F64
  threshold : F64
  source : String

structure AlertInstanceState where
  instanceId : String
  alert : ActiveAlert
  acknowledgedAt : Option String
  acknowledgedBy : Option String

structure AlertAcknowledgement where
  instanceId : String
  acknowledgedAt : String
  acknowledgedBy : String

structure AlertService where
  rules : List AlertRule
  activeInstances : List AlertInstanceState
  dirty : Bool
  revision : UInt64

/-! ## Calls -/

abbrev Answer (α : Type) := Except String α × AlertService

/-- The state was edited in place; `saved` is what `save_state` answers. -/
def AlertService.finish {α : Type} (s : AlertService) (saved : Except String Unit) (reply : α) :
    Answer α :=
  match saved with
  | .error e => (.error e, s)
  | .ok _ => (.ok reply, { s with dirty := false, revision := s.revision + 1 })

def createRule (rule : AlertRule) (uuid : String) (saved : Except String Unit)
    (s : AlertService) : Answer AlertRule :=
  if s.rules.any (·.id = rule.id) then (.error "rule ID already exists", s)
  else
    let rule := { rule with id := if rule.id = "" then uuid else rule.id }
    { s with rules := s.rules ++ [rule] }.finish saved rule

def updateRule (id : String) (update : AlertRuleUpdate) (saved : Except String Unit)
    (s : AlertService) : Answer AlertRule :=
  match s.rules.find? (·.id = id) with
  | none => (.error "rule not found", s)
  | some rule =>
    { s with rules := s.rules.modifyFirst (·.id = id) update.apply }.finish saved (update.apply rule)

def deleteRule (id : String) (saved : Except String Unit) (s : AlertService) : Answer Unit :=
  let rules := s.rules.filter (·.id ≠ id)
  if rules.length = s.rules.length then (.error "rule not found", { s with rules })
  else { s with rules }.finish saved ()

/-- The first acknowledgement stays. -/
def AlertInstanceState.acknowledge (username now : String) (i : AlertInstanceState) :
    AlertInstanceState :=
  { i with
    acknowledgedAt := some (i.acknowledgedAt.getD now)
    acknowledgedBy := some (i.acknowledgedBy.getD username) }

def markAcknowledged (instances : List AlertInstanceState) (instanceId username now : String) :
    Except String (AlertAcknowledgement × List AlertInstanceState) :=
  match instances.find? (·.instanceId = instanceId) with
  | none => .error "alert is no longer active"
  | some i => .ok (⟨i.instanceId, i.acknowledgedAt.getD now, i.acknowledgedBy.getD username⟩,
      instances.modifyFirst (·.instanceId = instanceId) (·.acknowledge username now))

def acknowledge (instanceId username now : String) (saved : Except String Unit)
    (s : AlertService) : Answer AlertAcknowledgement :=
  match markAcknowledged s.activeInstances instanceId username now, saved with
  | .error e, _ => (.error e, s)
  | .ok _, .error e => (.error e, s)
  | .ok (ack, instances), .ok _ => (.ok ack,
      { s with activeInstances := instances, dirty := false, revision := s.revision + 1 })

/-! ## Failed calls -/

/-- If the call fails, the rules, the occurrences and their acknowledgements are as before. -/
def KeptIfFailed {α : Type} (s : AlertService) (a : Answer α) : Prop :=
  ∀ e, a.1 = .error e → a.2.rules = s.rules ∧ a.2.activeInstances = s.activeInstances

variable {α : Type} {s : AlertService} {saved : Except String Unit}

theorem keptIfFailed_self {r : Except String α} : KeptIfFailed s (r, s) := fun _ _ => ⟨rfl, rfl⟩

theorem keptIfFailed_finish {rules : List AlertRule} {reply : α} :
    KeptIfFailed s ({ s with rules }.finish saved reply) ↔ saved.isOk ∨ rules = s.rules := by
  cases saved with
  | ok u =>
    refine iff_of_true ?_ (.inl rfl)
    rintro e ⟨⟩
  | error e =>
  constructor
  · exact fun h => .inr (h e rfl).1
  · rintro (⟨⟨⟩⟩ | rfl)
    exact keptIfFailed_self

theorem createRule_keptIfFailed {rule : AlertRule} {uuid : String} :
    KeptIfFailed s (createRule rule uuid saved s) ↔ saved.isOk ∨ rule.id ∈ s.rules.map (·.id) := by
  have htaken : s.rules.any (·.id = rule.id) ↔ rule.id ∈ s.rules.map (·.id) := by simp
  unfold createRule
  split
  · next h => exact iff_of_true keptIfFailed_self (.inr (htaken.1 h))
  · next h =>
    rw [keptIfFailed_finish, ← htaken]
    simp [h]

theorem updateRule_keptIfFailed {id : String} {update : AlertRuleUpdate} :
    KeptIfFailed s (updateRule id update saved s) ↔
      saved.isOk ∨ ∀ rule ∈ s.rules.find? (·.id = id), update.apply rule = rule := by
  rw [← List.modifyFirst_eq_self_iff]
  unfold updateRule
  split
  · next hnone =>
    refine iff_of_true keptIfFailed_self (.inr (List.modifyFirst_eq_self_iff.2 ?_))
    rw [hnone]
    nofun
  · exact keptIfFailed_finish

theorem deleteRule_keptIfFailed {id : String} :
    KeptIfFailed s (deleteRule id saved s) ↔ saved.isOk ∨ id ∉ s.rules.map (·.id) := by
  have hnone : s.rules.filter (·.id ≠ id) = s.rules ↔ id ∉ s.rules.map (·.id) := by
    rw [List.filter_eq_self]
    simp
  unfold deleteRule
  dsimp only
  split_ifs with h
  · have hself := (List.filter_sublist (l := s.rules)).eq_of_length h
    refine iff_of_true ?_ (.inr (hnone.1 hself))
    rw [hself]
    exact keptIfFailed_self
  · rw [keptIfFailed_finish, hnone]

theorem acknowledge_keptIfFailed {instanceId username now : String} :
    KeptIfFailed s (acknowledge instanceId username now saved s) := by
  unfold acknowledge
  split
  · exact keptIfFailed_self
  · exact keptIfFailed_self
  · rintro e ⟨⟩

/-- **Failed calls.** They leave everything as it was exactly if the save did not fail or there was
nothing to edit. -/
theorem keptIfFailed_iff (s : AlertService) (saved : Except String Unit) :
    (∀ rule uuid, KeptIfFailed s (createRule rule uuid saved s) ↔
      saved.isOk ∨ rule.id ∈ s.rules.map (·.id)) ∧
    (∀ id update, KeptIfFailed s (updateRule id update saved s) ↔
      saved.isOk ∨ ∀ rule ∈ s.rules.find? (·.id = id), update.apply rule = rule) ∧
    (∀ id, KeptIfFailed s (deleteRule id saved s) ↔ saved.isOk ∨ id ∉ s.rules.map (·.id)) ∧
    ∀ instanceId username now,
      KeptIfFailed s (acknowledge instanceId username now saved s) :=
  ⟨fun _ _ => createRule_keptIfFailed, fun _ _ => updateRule_keptIfFailed,
    fun _ => deleteRule_keptIfFailed, fun _ _ _ => acknowledge_keptIfFailed⟩

/-- The disk is full when a rule is deleted: the call fails, and the rule is gone from memory. -/
theorem deleted_though_failed :
    ∃ s : AlertService, ¬ KeptIfFailed s (deleteRule "cpu" (.error "No space left on device") s) := by
  refine ⟨⟨[⟨"cpu", "CPU", true, .cpuLoadPercent, .above, 90, .warning⟩], [], false, 0⟩, fun h => ?_⟩
  cases (h _ rfl).1

end Nasty.System.Alerts
