import Nasty.Firewall.Change
import Nasty.Lib.Lts

/-!
# Enabling and disabling a protocol

A request to enable a protocol opens the firewall, then starts the services and stores that the
protocol is enabled; where that fails, it stores that the protocol is disabled and closes the
firewall. A request to disable one stores this first and then closes the firewall. The state file
and the firewall have locks of their own, and requests overlap.
-/

namespace Nasty.Firewall.Protocols

open Lts List

/-- Whether the rule is active, and whether the protocol is stored as enabled. -/
structure View where
  active : Bool
  enabled : Bool
  deriving DecidableEq

/-- What a request is to do next. -/
inductive Stage
  | opening
  | enabling
  | disabling
  | closing (ok : Bool)
  deriving DecidableEq

/-- A request between its two sections: whether it is to leave the protocol enabled. -/
def Stage.midway : Stage → Option Bool
  | .opening | .disabling => none
  | .enabling => some true
  | .closing _ => some false

structure Call where
  stage : Stage
  /-- What the request has found. -/
  before : View
  /-- No other request has overlapped it so far. -/
  alone : Bool
  deriving DecidableEq

structure World where
  config : FirewallConfig
  enabled : Bool
  calls : List (ℕ × Call)
  /-- What the failed requests that no other overlapped have found and left. -/
  failed : List (View × View)

inductive Outcome
  | started
  /-- The preparation fails, or the start of a service. -/
  | failed
  /-- The machine hosts a domain, whose controller serves SMB. -/
  | hosted
  deriving DecidableEq

inductive Event
  | start (i : ℕ) (enable : Bool)
  | openRule (i : ℕ)
  | enable (i : ℕ) (outcome : Outcome)
  | disable (i : ℕ) (stopped : Bool)
  | closeRule (i : ℕ)

section

variable (proto : Protocol)

def active (c : FirewallConfig) : Bool :=
  (c.rules.find? (·.service = proto.name)).any (·.active)

def World.view (w : World) : View := ⟨active proto w.config, w.enabled⟩

def World.setRule (w : World) (active : Bool) : World :=
  let plan := setRuleActive proto.name (portsForProtocol proto) active w.config
  { w with config := (plan.result w.config).getD w.config }

def World.put (w : World) (i : ℕ) (stage : Stage) : World :=
  { w with calls := w.calls.map fun c => if c.1 = i then (i, { c.2 with stage }) else c }

def World.finish (w : World) (i : ℕ) (call : Call) (ok : Bool) : World :=
  { w with
    calls := w.calls.filter (·.1 ≠ i)
    failed := if !ok && call.alone then w.failed ++ [(call.before, w.view proto)] else w.failed }

def World.exec (w : World) : Event → Option World
  | .start i enable =>
    -- the requests for iSCSI and NVMe-oF do more
    if proto = .iscsi ∨ proto = .nvmeof ∨ (w.calls.lookup i).isSome then none
    else
      let stage := if enable then .opening else .disabling
      let others := w.calls.map fun c => (c.1, { c.2 with alone := false })
      some { w with calls := (i, ⟨stage, w.view proto, w.calls.isEmpty⟩) :: others }
  | .openRule i =>
    match w.calls.lookup i with
    | some ⟨.opening, _, _⟩ => some ((w.setRule proto true).put i .enabling)
    | _ => none
  | .enable i outcome =>
    match w.calls.lookup i, outcome with
    | some ⟨.enabling, before, alone⟩, .started =>
      some ({ w with enabled := true }.finish proto i ⟨.enabling, before, alone⟩ true)
    | some ⟨.enabling, _, _⟩, .failed => some ({ w with enabled := false }.put i (.closing false))
    | some ⟨.enabling, _, _⟩, .hosted =>
      if proto = .smb then some (w.put i (.closing false)) else none
    | _, _ => none
  | .disable i stopped =>
    match w.calls.lookup i with
    | some ⟨.disabling, before, alone⟩ =>
      let w := { w with enabled := false }
      if stopped then some (w.put i (.closing true))
      -- services that do not stop are logged, but for the watchdog
      else if proto = .watchdog then some (w.finish proto i ⟨.disabling, before, alone⟩ false)
      else none
    | _ => none
  | .closeRule i =>
    match w.calls.lookup i with
    | some ⟨.closing ok, before, alone⟩ =>
      some ((w.setRule proto false).finish proto i ⟨.closing ok, before, alone⟩ ok)
    | _ => none

def Step (w : World) (e : Event) (w' : World) : Prop := w.exec proto e = some w'

def World.NoneMidway (w : World) (i : ℕ) (b : Bool) : Prop :=
  ∀ x ∈ w.calls, x.1 ≠ i → x.2.stage.midway ≠ some b

/-- No section of a request comes between the two of an opposite one, the protocol has ports, and a
request to enable it does not fail while it is enabled. -/
def Careful (w : World) : Event → Prop
  | .start .. => portsForProtocol proto ≠ []
  | .openRule i => w.NoneMidway i false
  | .enable i outcome => outcome = .started ∨ w.enabled = false ∧ w.NoneMidway i true
  | .disable i _ => w.NoneMidway i true
  | .closeRule _ => True

def Call.Fits (w : World) (c : Call) : Prop :=
  match c.stage with
  | .opening | .disabling => w.view proto = c.before
  | .enabling => active proto w.config = true ∧ w.enabled = c.before.enabled
  | .closing ok => w.enabled = false ∧ (ok = false → c.before.enabled = false)

/-- The requests that are midway are of one kind, whose first section is in effect; without one,
rule and state agree. -/
def World.Agrees (w : World) : Prop :=
  ∃ b, (∀ x ∈ w.calls, x.2.stage.midway ≠ some !b) ∧
    (if b then active proto w.config = true else w.enabled = false) ∧
    ((∀ x ∈ w.calls, x.2.stage.midway ≠ some b) → active proto w.config = w.enabled)

structure Inv (w : World) : Prop where
  failed : ∀ x ∈ w.failed, x.1 = x.2
  ports : w.calls ≠ [] → portsForProtocol proto ≠ []
  agrees : w.Agrees proto
  alone : ∀ i c, (i, c) ∈ w.calls → c.alone = true →
    w.calls = [(i, c)] ∧ c.before.active = c.before.enabled ∧ c.Fits proto w

end

variable {proto : Protocol} {w w' u : World} {i : ℕ} {c : Call} {b : Bool} {stage : Stage}

theorem active_setRule (hports : portsForProtocol proto ≠ []) (w : World) (b : Bool) :
    active proto (w.setRule proto b).config = b := by
  unfold World.setRule setRuleActive
  rw [if_neg hports]
  cases hfind : w.config.rules.find? (·.service = proto.name) with
  | none => simp [Plan.result, active, find?_append, hfind]
  | some rule =>
    dsimp only
    split_ifs with hactive
    · simp [Plan.result, active, hfind, hactive]
    · have hname : rule.service = proto.name := by simpa using find?_some hfind
      simp [Plan.result, active, find?_modifyFirst hfind, hname]

theorem mem_of_lookup (h : w.calls.lookup i = some c) : (i, c) ∈ w.calls := by
  obtain ⟨l₁, l₂, hl, -⟩ := lookup_eq_some_iff.1 h
  simp [hl]

theorem Inv.midway (h : Inv proto w) (hi : (i, c) ∈ w.calls) (hc : c.stage.midway = some b) :
    (∀ x ∈ w.calls, x.2.stage.midway ≠ some !b) ∧
      if b then active proto w.config = true else w.enabled = false := by
  obtain ⟨b', hall, hval, -⟩ := h.agrees
  obtain rfl : b = b' := by
    have hne := hall _ hi
    rw [hc] at hne
    cases b <;> cases b' <;> simp_all
  exact ⟨hall, hval⟩

/-- A request has gone through its first section. -/
theorem Inv.put (h : Inv proto w) (hi : w.calls.lookup i = some c) (hcalls : u.calls = w.calls)
    (hfailed : u.failed = w.failed) (hstage : stage.midway = some b) (hothers : w.NoneMidway i !b)
    (hval : if b then active proto u.config = true else u.enabled = false)
    (hfits : c.Fits proto w → ({ c with stage } : Call).Fits proto u) :
    Inv proto (u.put i stage) := by
  have hmem := mem_of_lookup hi
  refine ⟨hfailed ▸ h.failed, fun _ => h.ports (ne_nil_of_mem hmem),
    ⟨b, fun x hx => ?_, hval, fun hnone => ?_⟩, ?_⟩
  · obtain ⟨y, hy, rfl⟩ := mem_map.1 hx
    split_ifs with hyi
    · simp [hstage]
    · exact hothers y (hcalls ▸ hy) hyi
  · exact absurd hstage (hnone _ (mem_map.2 ⟨(i, c), hcalls ▸ hmem, if_pos rfl⟩))
  · intro j d hd halone
    obtain ⟨⟨k, e⟩, hk, heq⟩ := mem_map.1 hd
    have he : e.alone = true := by
      split_ifs at heq <;> cases heq <;> exact halone
    obtain ⟨hone, hbefore, hold⟩ := h.alone k e (hcalls ▸ hk) he
    rw [hone] at hmem
    cases mem_singleton.1 hmem
    rw [if_pos rfl] at heq
    cases heq
    exact ⟨by simp [World.put, hcalls, hone], hbefore, hfits hold⟩

/-- A request has gone through its second section. -/
theorem Inv.finish {ok : Bool} (h : Inv proto w) (hi : w.calls.lookup i = some c)
    (hcalls : u.calls = w.calls) (hfailed : u.failed = w.failed) (hc : c.stage.midway = some b)
    (hactive : active proto u.config = b) (henabled : u.enabled = b)
    (hok : ok = false → c.before.active = c.before.enabled → c.Fits proto w → c.before = u.view proto) :
    Inv proto (u.finish proto i c ok) := by
  have hmem := mem_of_lookup hi
  have hsame : ∀ x ∈ (u.finish proto i c ok).calls, x ∈ w.calls := fun x hx =>
    hcalls ▸ mem_of_mem_filter hx
  have hagrees : (u.finish proto i c ok).Agrees proto := by
    refine ⟨b, fun x hx => (h.midway hmem hc).1 x (hsame x hx), ?_, fun _ => ?_⟩
    · cases b with
      | true => exact hactive
      | false => exact henabled
    · exact hactive.trans henabled.symm
  refine ⟨?_, fun _ => h.ports (ne_nil_of_mem hmem), hagrees, fun j d hd halone => ?_⟩
  · unfold World.finish
    dsimp only
    rw [hfailed]
    split_ifs with hbad
    · rw [Bool.and_eq_true, Bool.not_eq_true'] at hbad
      obtain ⟨-, hbefore, hfits⟩ := h.alone i c hmem hbad.2
      exact forall_mem_append.2 ⟨h.failed, forall_mem_singleton.2 (hok hbad.1 hbefore hfits)⟩
    · exact h.failed
  · obtain ⟨hone, -⟩ := h.alone j d (hsame _ hd) halone
    rw [hone] at hmem
    cases mem_singleton.1 hmem
    simp [World.finish] at hd

theorem Inv.start (h : Inv proto w) (hports : portsForProtocol proto ≠ [])
    (hstage : stage = .opening ∨ stage = .disabling) : Inv proto { w with
      calls := (i, ⟨stage, w.view proto, w.calls.isEmpty⟩) ::
        w.calls.map fun c => (c.1, { c.2 with alone := false }) } := by
  have hnew : stage.midway = none := by rcases hstage with rfl | rfl <;> rfl
  obtain ⟨b, hall, hval, hagree⟩ := h.agrees
  refine ⟨h.failed, fun _ => hports, ⟨b, ?_, hval, fun hnone => hagree ?_⟩, fun j d hd halone => ?_⟩
  · exact forall_mem_cons.2 ⟨by simp [hnew], forall_mem_map.2 hall⟩
  · exact fun x hx => (forall_mem_cons.1 hnone).2 (x.1, { x.2 with alone := false })
      (mem_map_of_mem hx)
  · rcases mem_cons.1 hd with heq | hd
    · cases heq
      have hnil : w.calls = [] := isEmpty_iff.1 halone
      refine ⟨by simp [hnil], hagree (by simp [hnil]), ?_⟩
      rcases hstage with rfl | rfl <;> rfl
    · obtain ⟨y, -, heq⟩ := mem_map.1 hd
      cases heq
      cases halone

theorem Inv.step {e : Event} (h : Inv proto w) (hcareful : Careful proto w e)
    (hstep : Step proto w e w') : Inv proto w' := by
  unfold Step at hstep
  cases e with
  | start i enable =>
    simp only [World.exec] at hstep
    split_ifs at hstep <;> cases hstep
    · exact h.start hcareful (.inl rfl)
    · exact h.start hcareful (.inr rfl)
  | openRule i =>
    simp only [World.exec] at hstep
    split at hstep <;> cases hstep
    next before alone hi =>
    have hports := h.ports (ne_nil_of_mem (mem_of_lookup hi))
    have hopen := active_setRule hports w true
    exact h.put hi rfl rfl rfl hcareful hopen fun hfits => ⟨hopen, congrArg View.enabled hfits⟩
  | enable i outcome =>
    simp only [World.exec] at hstep
    split at hstep
    · next before alone hi =>
      cases hstep
      exact h.finish hi rfl rfl rfl (h.midway (mem_of_lookup hi) rfl).2 rfl nofun
    · next before alone hi =>
      cases hstep
      obtain ⟨hoff, hothers⟩ := hcareful.resolve_left nofun
      exact h.put hi rfl rfl rfl hothers rfl fun hfits => ⟨rfl, fun _ => hfits.2.symm.trans hoff⟩
    · next before alone hi =>
      split_ifs at hstep
      cases hstep
      obtain ⟨hoff, hothers⟩ := hcareful.resolve_left nofun
      exact h.put hi rfl rfl rfl hothers hoff fun hfits => ⟨hoff, fun _ => hfits.2.symm.trans hoff⟩
    · cases hstep
  | disable i stopped =>
    simp only [World.exec] at hstep
    split at hstep
    · next before alone hi =>
      split_ifs at hstep with hstopped hproto
      · cases hstep
        exact h.put hi rfl rfl rfl hcareful rfl fun _ => ⟨rfl, nofun⟩
      · exact absurd (by rw [hproto]; rfl) (h.ports (ne_nil_of_mem (mem_of_lookup hi)))
    · cases hstep
  | closeRule i =>
    simp only [World.exec] at hstep
    split at hstep <;> cases hstep
    next ok before alone hi =>
    have hmem := mem_of_lookup hi
    have hrule := active_setRule (h.ports (ne_nil_of_mem hmem)) w false
    have henabled : w.enabled = false := (h.midway hmem rfl).2
    refine h.finish hi rfl rfl rfl hrule henabled fun hok hbefore hfits => ?_
    have hboth : before = ⟨false, false⟩ :=
      congrArg₂ View.mk (hbefore.trans (hfits.2 hok)) (hfits.2 hok)
    rw [hboth, World.view, hrule]
    exact congrArg (View.mk false) henabled.symm

/-- **Rule and state.** Between careful requests the rule is active exactly if the protocol is
enabled, and a failed one changes neither. -/
theorem rule_follows_state {w₀ : World} {es : List Event} (hcalls : w₀.calls = [])
    (hfailed : w₀.failed = []) (hagree : active proto w₀.config = w₀.enabled)
    (hrun : Run (fun w e w' => Careful proto w e ∧ Step proto w e w') w₀ es w) :
    (w.calls = [] → active proto w.config = w.enabled) ∧ ∀ x ∈ w.failed, x.1 = x.2 := by
  have hinit : Inv proto w₀ := by
    refine ⟨by simp [hfailed], fun hne => absurd hcalls hne,
      ⟨w₀.enabled, ?_, ?_, fun _ => hagree⟩, ?_⟩
    · simp [hcalls]
    · cases henabled : w₀.enabled <;> simp [hagree, henabled]
    · simp [hcalls]
  have h : Inv proto w := hrun.inv hinit fun _ _ _ h hstep => h.step hstep.1 hstep.2
  obtain ⟨b, -, -, hagree⟩ := h.agrees
  exact ⟨fun hidle => hagree (by simp [hidle]), h.failed⟩

def quiet : World := ⟨⟨[], ⟨fun _ => none, fun _ => none⟩, [], []⟩, false, [], []⟩

theorem noneMidway_of_all (h : (w.calls.all fun x => x.1 = i ∨ x.2.stage.midway ≠ some b) = true) :
    w.NoneMidway i b :=
  fun x hx hne => (of_decide_eq_true (all_eq_true.1 h x hx)).resolve_left hne

/-- Two requests to enable NFS overlap, and one to disable it follows. -/
theorem rule_follows_state_nfs : ∃ es w,
    Run (fun w e w' => Careful .nfs w e ∧ Step .nfs w e w') quiet es w ∧ es.length = 9 ∧
      (w.calls = [] → active .nfs w.config = w.enabled) ∧ ∀ x ∈ w.failed, x.1 = x.2 := by
  have hnil : Run (fun w e w' => Careful .nfs w e ∧ Step .nfs w e w') quiet [] quiet := .nil
  have hstart := (hnil.next (.start 0 true) nofun rfl).next (.start 1 true) nofun rfl
  have hopen := (hstart.next (.openRule 0) (noneMidway_of_all rfl) rfl).next (.openRule 1)
    (noneMidway_of_all rfl) rfl
  have hon := (hopen.next (.enable 0 .started) (.inl rfl) rfl).next (.enable 1 .started) (.inl rfl)
    rfl
  have hrun := ((hon.next (.start 2 false) nofun rfl).next (.disable 2 true)
    (noneMidway_of_all rfl) rfl).next (.closeRule 2) trivial rfl
  exact ⟨_, _, hrun, rfl, rule_follows_state rfl rfl rfl hrun⟩

/-- A request to disable NFS overtakes one to enable it; and a second request to enable it fails. -/
theorem rule_left_behind :
    (∃ es w, Run (Step .nfs) quiet es w ∧ w.calls = [] ∧
      active .nfs w.config = false ∧ w.enabled = true) ∧
    ∃ es w, Run (Step .nfs) quiet es w ∧ (⟨true, true⟩, ⟨false, false⟩) ∈ w.failed := by
  constructor
  · exact ⟨[.start 0 true, .openRule 0, .start 1 false, .disable 1 true, .closeRule 1,
      .enable 0 .started], _, Run.of_foldlM rfl, rfl, rfl, rfl⟩
  · exact ⟨[.start 0 true, .openRule 0, .enable 0 .started, .start 0 true, .openRule 0,
      .enable 0 .failed, .closeRule 0], _, Run.of_foldlM rfl, by decide⟩

end Nasty.Firewall.Protocols
