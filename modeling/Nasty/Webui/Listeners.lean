import Nasty.Firewall.Rules
import Nasty.Lib.Lts
import Nasty.Lib.Prog

/-!
# Management listeners

A change of the WebUI's ports is made at once and kept only if it is confirmed in time. Four
stores are written one after the other: the state file, the state in memory, Caddy and the
firewall. Every operation holds the lock on the state, so operations do not overlap, but any of
their external steps may fail, and the engine may stop between two of them.

1. Each operation has one specification: how it ends (`…_spec`) and in which states it can be
   cut short.
2. From these a step of the service keeps `Inv`, and with it every run does.
-/

namespace Nasty.Webui

open Prog Except

open Firewall (ListenerPorts)
open Lts

/-! ## Ports and state -/

def validate (p : ListenerPorts) : Except String Unit := do
  .refuse (p.httpsPort = 0 ∨ p.httpPort = some 0) "Ports must be between 1 and 65535"
  .refuse (p.httpPort = some p.httpsPort) "HTTP and HTTPS ports must differ"
  .refuse ((p.httpsPort :: p.httpPort.toList).any ([2019, 2137].contains ·))
    "Caddy admin and engine API ports are reserved"

structure PendingListeners where
  txnId : String
  ports : ListenerPorts
  deadline : ℕ
  deriving DecidableEq

structure ListenerState where
  confirmed : ListenerPorts
  pending : Option PendingListeners
  lastError : Option String
  deriving DecidableEq

def timeout : ℕ := 30

/-- The state file, or the ports of the engine's environment if there is none. -/
def load (defaults : Except String ListenerPorts) :
    Option ListenerState → Except String ListenerState
  | some state => do
    validate state.confirmed
    (state.pending.map (validate ·.ports)).getD (.ok ())
    .ok state
  | none => do
    let confirmed ← defaults
    validate confirmed
    .ok ⟨confirmed, none, none⟩

/-- What is stored: the file, Caddy, the firewall, and the memory of the engine. -/
structure World where
  disk : Option ListenerState
  caddy : Option ListenerPorts
  firewall : Option ListenerPorts
  state : ListenerState
  recovering : Bool
  deriving DecidableEq

/-- A new process drops an unconfirmed change and has to recover first. -/
def restart (defaults : Except String ListenerPorts) (w : World) : Option World :=
  match load defaults w.disk with
  | .ok state => some { w with state := { state with pending := none }, recovering := true }
  | .error _ => none

/-! ## Operations -/

/-- The outcome of a change of Caddy or the firewall, which may have been made even if an error
comes back. -/
inductive Outcome
  | ok
  | failed (error : String) (applied : Bool)

inductive Health
  | unreachable (error : String)
  | refused (error : String)
  | answered (ok : Bool)

structure Answers where
  now : ℕ
  txnId : String
  save : Option String
  firewall : Outcome
  caddy : Outcome
  health : Health
  /-- The time after the health check. -/
  later : ℕ
  restoreCaddy : Outcome
  restoreFirewall : Outcome
  restoreSave : Option String

def save (error : Option String) (state : ListenerState) : Prog World String Unit :=
  match error with
  | none => .modify ({ · with disk := some state })
  | some e => .fail e

def change (o : Outcome) (set : World → World) : Prog World String Unit :=
  match o with
  | .ok => .modify set
  | .failed e applied => do
    .modify fun w => if applied then set w else w
    .fail e

def applyCaddy (o : Outcome) (ports : ListenerPorts) : Prog World String Unit :=
  change o ({ · with caddy := some ports })

def setWebuiPorts (o : Outcome) (ports : ListenerPorts) : Prog World String Unit :=
  change o ({ · with firewall := some ports })

variable (a : Answers)

def rollbackLocked : Prog World String Unit := do
  .modify ({ · with recovering := true })
  let confirmed ← .read (·.state.confirmed)
  applyCaddy a.restoreCaddy confirmed
  setWebuiPorts a.restoreFirewall confirmed
  let w ← .read id
  let restored := { w.state with pending := none }
  -- without a file the defaults of the environment stay in force
  if w.disk.isSome then save a.restoreSave restored
  .modify ({ · with state := restored })
  .modify ({ · with recovering := false })

def undo (e : String) : Prog World String ListenerState := do
  .modify fun w => { w with state := { w.state with lastError := some e } }
  match ← (rollbackLocked a).attempt with
  | .error rollback => .fail s!"{e}; rollback failed: {rollback}"
  | .ok () => .fail e

def update (ports : ListenerPorts) : Prog World String ListenerState := do
  .ofExcept (validate ports)
  let w ← .read id
  if w.recovering then
    .fail "WebUI listener startup recovery has not completed"
  else if w.state.pending.isSome then
    .fail "Confirm or roll back the pending WebUI port change first"
  else if ports = w.state.confirmed then
    return w.state
  else
    let state : ListenerState :=
      ⟨w.state.confirmed, some ⟨a.txnId, ports, a.now + timeout⟩, none⟩
    .modify ({ · with state })
    match ← (save a.save state).attempt with
    | .error e =>
      .modify fun w => { w with state := { w.state with pending := none } }
      .fail e
    | .ok () =>
      match ← (do
          setWebuiPorts a.firewall ports
          applyCaddy a.caddy ports : Prog World String Unit).attempt with
      | .error e => undo a e
      | .ok () => .read (·.state)

def confirm (txnId : String) : Prog World String ListenerState := do
  let w ← .read id
  if w.recovering then
    .fail "WebUI listeners are being recovered; cannot confirm"
  else match w.state.pending with
    | none => .fail "No pending WebUI port change"
    | some pending =>
      if pending.txnId ≠ txnId ∨ pending.deadline ≤ a.now then
        .fail "Unknown or expired WebUI port transaction"
      else match a.health with
        | .unreachable e => .fail s!"New HTTPS listener is not reachable: {e}"
        | .refused e => .fail e
        | .answered false => .fail "New HTTPS listener failed its health check"
        | .answered true =>
          if pending.deadline ≤ a.later then
            .fail "WebUI port transaction expired during health check"
          else
            let confirmed : ListenerState := ⟨pending.ports, none, none⟩
            save a.save confirmed
            .modify ({ · with state := confirmed })
            return confirmed

def rollback : Prog World String ListenerState := do
  rollbackLocked a
  .read (·.state)

def tick : Prog World String Unit := do
  let w ← .read id
  if w.recovering ∨ (∃ p ∈ w.state.pending, p.deadline ≤ a.now) then
    match ← (rollbackLocked a).attempt with
    | .error e =>
      .modify fun w =>
        { w with state := { w.state with lastError := some s!"Rollback failed; retrying: {e}" } }
      .fail e
    | .ok () => return ()

inductive Op
  | update (ports : ListenerPorts)
  | confirm (txnId : String)
  | rollback
  | tick

def Op.run : Op → Prog World String Unit
  | .update ports => (fun _ => ()) <$> Webui.update a ports
  | .confirm txnId => (fun _ => ()) <$> Webui.confirm a txnId
  | .rollback => (fun _ => ()) <$> Webui.rollback a
  | .tick => Webui.tick a

/-! ## Specifications -/

def Stored (defaults : Except String ListenerPorts) (confirmed : ListenerPorts)
    (disk : Option ListenerState) : Prop :=
  ∃ state, load defaults disk = .ok state ∧ state.confirmed = confirmed

variable {defaults : Except String ListenerPorts} {a : Answers} {w w' : World}
  {confirmed ports : ListenerPorts} {txnId : String} {op : Op}
  {Q : Except String Unit → World → Prop} {C : World → Prop} {t : World} {state : ListenerState}

theorem load_some {saved : ListenerState} : load defaults (some saved) = .ok state ↔
      validate saved.confirmed = .ok () ∧ (∀ p ∈ saved.pending, validate p.ports = .ok ()) ∧
        state = saved := by
  have hpending : (saved.pending.map (validate ·.ports)).getD (.ok ()) = .ok () ↔
      ∀ p ∈ saved.pending, validate p.ports = .ok () := by
    cases saved.pending <;> simp
  constructor
  · intro h
    obtain ⟨⟨⟩, hconfirmed, h⟩ := bind_eq_ok.1 h
    obtain ⟨⟨⟩, hvalid, h⟩ := bind_eq_ok.1 h
    exact ⟨hconfirmed, hpending.1 hvalid, (ok.inj h).symm⟩
  · rintro ⟨hconfirmed, hvalid, rfl⟩
    exact bind_eq_ok.2 ⟨(), hconfirmed, bind_eq_ok.2 ⟨(), hpending.2 hvalid, rfl⟩⟩

theorem Stored.valid {disk : Option ListenerState} (h : Stored defaults confirmed disk) :
    validate confirmed = .ok () := by
  obtain ⟨state, hload, rfl⟩ := h
  cases disk with
  | none =>
    obtain ⟨ports, hload⟩ := rest_ok hload
    obtain ⟨⟨⟩, hvalid, hstate⟩ := bind_eq_ok.1 hload
    cases hstate
    exact hvalid
  | some saved =>
    obtain ⟨hvalid, -, rfl⟩ := load_some.1 hload
    exact hvalid

theorem stored_some (hconfirmed : validate state.confirmed = .ok ())
    (hpending : ∀ p ∈ state.pending, validate p.ports = .ok ()) :
    Stored defaults state.confirmed (some state) :=
  ⟨state, load_some.2 ⟨hconfirmed, hpending, rfl⟩, rfl⟩

/-- Memory and file agree on the confirmed ports, and a pending change can be loaded. -/
structure Kept (defaults : Except String ListenerPorts) (w : World) : Prop where
  stored : Stored defaults w.state.confirmed w.disk
  valid : ∀ p ∈ w.state.pending, validate p.ports = .ok ()

def Carries (w : World) (ports : ListenerPorts) : Prop :=
  w.caddy = some ports ∧ w.firewall = some ports

theorem change_spec {o : Outcome} {set : World → World} (hbefore : C w) (hafter : C (set w))
    (hok : Q (.ok ()) (set w)) (hfailed : ∀ e, Q (.error e) w ∧ Q (.error e) (set w)) :
    (change o set).wp Q C w := by
  cases o with
  | ok => exact ⟨hbefore, hafter, hok⟩
  | failed e applied =>
    cases applied with
    | false => exact ⟨hbefore, hbefore, (hfailed e).1⟩
    | true => exact ⟨hbefore, hafter, (hfailed e).2⟩

theorem save_spec {error : Option String} (hbefore : C w) (hafter : C { w with disk := some state })
    (hok : Q (.ok ()) { w with disk := some state }) (hfailed : ∀ e, Q (.error e) w) :
    (save error state).wp Q C w := by
  cases error with
  | none => exact ⟨hbefore, hafter, hok⟩
  | some e => exact ⟨hbefore, hfailed e⟩

def Recovered (defaults : Except String ListenerPorts) (w : World) (r : Except String Unit)
    (t : World) : Prop :=
  t.state.confirmed = w.state.confirmed ∧ Kept defaults t ∧
    match r with
    | .ok () => t.recovering = false ∧ t.state.pending = none ∧ Carries t w.state.confirmed
    | .error _ => t.recovering = true

theorem rollbackLocked_spec (h : Kept defaults w) : (rollbackLocked a).wp (Recovered defaults w)
      (fun t => Stored defaults w.state.confirmed t.disk) w := by
  have hstored := h.stored
  have hrestored : Stored defaults w.state.confirmed (some { w.state with pending := none }) :=
    stored_some h.stored.valid (by simp)
  simp only [rollbackLocked, wp_bind, wp_modify, after_ok, wp_read]
  refine ⟨hstored, hstored, hstored, ?_⟩
  refine change_spec hstored hstored ?_ fun e =>
    ⟨⟨rfl, ⟨hstored, h.valid⟩, rfl⟩, ⟨rfl, ⟨hstored, h.valid⟩, rfl⟩⟩
  simp only [after_ok, wp_bind]
  refine change_spec hstored hstored ?_ fun e =>
    ⟨⟨rfl, ⟨hstored, h.valid⟩, rfl⟩, ⟨rfl, ⟨hstored, h.valid⟩, rfl⟩⟩
  simp only [after_ok, wp_bind, wp_read]
  refine ⟨hstored, ?_⟩
  split_ifs with hdisk
  · rw [wp_bind]
    refine save_spec hstored hrestored ?_ fun e => ⟨rfl, ⟨hstored, h.valid⟩, rfl⟩
    simp only [after_ok, wp_bind]
    exact ⟨hrestored, hrestored, hrestored, hrestored, rfl, ⟨hrestored, by simp⟩, rfl, rfl,
      rfl, rfl⟩
  · simp only [wp_bind]
    exact ⟨hstored, hstored, hstored, hstored, rfl, ⟨hstored, by simp⟩, rfl, rfl, rfl, rfl⟩

def World.target (w : World) : ListenerPorts :=
  (w.state.pending.map (·.ports)).getD w.state.confirmed

structure Inv (defaults : Except String ListenerPorts) (w : World) : Prop
    extends Kept defaults w where
  live : w.recovering = false → Carries w w.target

def Op.Confirms (a : Answers) (w : World) (ports : ListenerPorts) : Op → Prop
  | .confirm txnId => w.recovering = false ∧ ∃ p ∈ w.state.pending, p.txnId = txnId ∧
      a.now < p.deadline ∧ a.health = .answered true ∧ a.later < p.deadline ∧ ports = p.ports
  | _ => False

def Op.recovers : Op → Bool
  | .update _ | .confirm _ => false
  | .rollback | .tick => true

structure Effect (defaults : Except String ListenerPorts) (a : Answers) (op : Op) (w : World)
    (r : Except String Unit) (t : World) : Prop where
  inv : Inv defaults t
  confirmed : t.state.confirmed = w.state.confirmed ∨
    r = .ok () ∧ op.Confirms a w t.state.confirmed
  recovered : w.recovering = true →
    t.recovering = true ∧ r ≠ .ok () ∨
      op.recovers ∧ r = .ok () ∧ t.recovering = false ∧ Carries t t.state.confirmed

def Cut (defaults : Except String ListenerPorts) (a : Answers) (op : Op) (w t : World) : Prop :=
  ∃ ports, Stored defaults ports t.disk ∧ (ports = w.state.confirmed ∨ op.Confirms a w ports)

theorem Stored.cut (h : Stored defaults w.state.confirmed t.disk) : Cut defaults a op w t :=
  ⟨_, h, .inl rfl⟩

variable {r answer : Except String Unit} {es : List Event}

theorem Recovered.inv (h : Recovered defaults w r t) : Inv defaults t := by
  obtain ⟨hconfirmed, hkept, h⟩ := h
  refine ⟨hkept, fun hlive => ?_⟩
  cases r with
  | ok =>
    obtain ⟨-, hpending, hcarries⟩ := h
    rw [World.target, hpending]
    exact hconfirmed ▸ hcarries
  | error => exact absurd (h.symm.trans hlive) (by simp)

theorem Inv.effect_same (h : Inv defaults w)
    (hr : w.recovering = true → r ≠ .ok ()) : Effect defaults a op w r w :=
  ⟨h, .inl rfl, fun hrecovering => .inl ⟨hrecovering, hr hrecovering⟩⟩

theorem undo_spec {e : String} (hlive : w.recovering = false) (h : Kept defaults t)
    (hconfirmed : t.state.confirmed = w.state.confirmed) :
    (undo a e).wp (fun r t => Effect defaults a op w (r.map fun _ => ()) t)
      (Cut defaults a op w) t := by
  have heffect : ∀ {r : Except String Unit} {u : World},
      Recovered defaults { t with state := { t.state with lastError := some e } } r u →
        Cut defaults a op w u ∧ ∀ r', Effect defaults a op w r' u := by
    intro r u hu
    have hsame : u.state.confirmed = w.state.confirmed := hu.1.trans hconfirmed
    exact ⟨(hsame ▸ hu.2.1.stored).cut, fun r' => ⟨hu.inv, .inl hsame,
      fun hr => absurd (hr.symm.trans hlive) (by simp)⟩⟩
  have hstored : Cut defaults a op w t := (hconfirmed ▸ h.stored).cut
  simp only [undo, wp_bind, wp_modify, after_ok, wp_attempt]
  refine ⟨hstored, hstored, ?_⟩
  refine Prog.wp.imp (rollbackLocked_spec ⟨h.stored, h.valid⟩) (fun r u hu => ?_)
    fun u hu => (hconfirmed ▸ hu).cut
  cases r with
  | error rollback | ok => exact ⟨(heffect hu).1, (heffect hu).2 _⟩

theorem update_spec (h : Inv defaults w) :
    (update a ports).wp
      (fun r t => Effect defaults a (.update ports) w (r.map fun _ => ()) t)
      (Cut defaults a (.update ports) w) w := by
  have hstored := h.stored
  simp only [update, wp_bind]
  refine ⟨hstored.cut, ?_⟩
  rcases hvalid : validate ports with e | ⟨⟨⟩⟩
  · exact h.effect_same fun _ => by simp [Except.map]
  simp only [after_ok, wp_bind, wp_read]
  refine ⟨hstored.cut, ?_⟩
  split_ifs with hrecovering hpending hports
  · exact ⟨hstored.cut, h.effect_same fun _ => by simp [Except.map]⟩
  · exact ⟨hstored.cut, h.effect_same fun _ => by simp [Except.map]⟩
  · exact ⟨hstored.cut, h.effect_same fun hr => absurd hr hrecovering⟩
  have hlive : w.recovering = false := Bool.eq_false_iff.2 hrecovering
  have hnone : w.state.pending = none := by simpa using hpending
  have hcandidate : Stored defaults w.state.confirmed
      (some ⟨w.state.confirmed, some ⟨a.txnId, ports, a.now + timeout⟩, none⟩) :=
    stored_some h.stored.valid (by simpa using hvalid)
  have hkept : ∀ caddy firewall, Kept defaults
      ⟨_, caddy, firewall, ⟨w.state.confirmed, some ⟨a.txnId, ports, a.now + timeout⟩, none⟩,
        w.recovering⟩ :=
    fun _ _ => ⟨hcandidate, by simpa using hvalid⟩
  simp only [wp_bind, wp_modify, after_ok, wp_attempt]
  refine ⟨hstored.cut, hstored.cut, save_spec hstored.cut hcandidate.cut ?_ fun e => ?_⟩
  · simp only [after_ok, wp_bind, wp_attempt]
    refine change_spec hcandidate.cut hcandidate.cut ?_ fun e =>
      ⟨undo_spec hlive (hkept _ _) rfl, undo_spec hlive (hkept _ _) rfl⟩
    refine change_spec hcandidate.cut hcandidate.cut ?_ fun e =>
      ⟨undo_spec hlive (hkept _ _) rfl, undo_spec hlive (hkept _ _) rfl⟩
    simp only [wp_read]
    refine ⟨hcandidate.cut, ⟨⟨hkept _ _, fun _ => ⟨rfl, rfl⟩⟩, .inl rfl, fun hr => ?_⟩⟩
    exact absurd (hr.symm.trans hlive) (by simp)
  · -- the file could not be written: memory is as before, without the old error
    simp only [wp_bind]
    refine ⟨hstored.cut, hstored.cut, hstored.cut, ⟨⟨hstored, by simp⟩, fun _ => ?_⟩, .inl rfl,
      fun hr => absurd (hr.symm.trans hlive) (by simp)⟩
    have hcarries := h.live hlive
    rw [World.target, hnone] at hcarries
    exact hcarries

theorem confirm_spec (h : Inv defaults w) :
    (confirm a txnId).wp
      (fun r t => Effect defaults a (.confirm txnId) w (r.map fun _ => ()) t)
      (Cut defaults a (.confirm txnId) w) w := by
  have hstored := h.stored
  have hrefused : ∀ e : String, (Prog.fail e : Prog World String ListenerState).wp
      (fun r t => Effect defaults a (.confirm txnId) w (r.map fun _ => ()) t)
      (Cut defaults a (.confirm txnId) w) w :=
    fun e => ⟨hstored.cut, h.effect_same nofun⟩
  simp only [confirm, wp_bind, wp_read, after_ok, id]
  refine ⟨hstored.cut, ?_⟩
  split_ifs with hrecovering
  · exact hrefused _
  rcases hpending : w.state.pending with _ | p
  · exact hrefused _
  dsimp only
  by_cases hknown : p.txnId ≠ txnId ∨ p.deadline ≤ a.now
  · rw [if_pos hknown]
    exact hrefused _
  rw [if_neg hknown]
  rcases hhealth : a.health with e | e | ok
  · exact hrefused _
  · exact hrefused _
  cases ok with
  | false => exact hrefused _
  | true =>
  split_ifs with hlate
  · exact hrefused _
  have hlive : w.recovering = false := Bool.eq_false_iff.2 hrecovering
  obtain ⟨htxn, hnow⟩ := not_or.1 hknown
  have hconfirms : (Op.confirm txnId).Confirms a w p.ports :=
    ⟨hlive, p, hpending, not_not.1 htxn, Nat.not_le.1 hnow, hhealth, Nat.not_le.1 hlate, rfl⟩
  have hnew : Stored defaults p.ports (some ⟨p.ports, none, none⟩) :=
    stored_some (h.valid p hpending) (by simp)
  have hcut : ∀ t : World, t.disk = some ⟨p.ports, none, none⟩ →
      Cut defaults a (.confirm txnId) w t :=
    fun t ht => ⟨_, ht ▸ hnew, .inr hconfirms⟩
  simp only [wp_bind]
  refine save_spec hstored.cut (hcut _ rfl) ?_ fun e => h.effect_same nofun
  simp only [after_ok, wp_bind]
  refine ⟨hcut _ rfl, hcut _ rfl, hcut _ rfl, ⟨⟨hnew, by simp⟩, fun _ => ?_⟩,
    .inr ⟨rfl, hconfirms⟩, fun hr => absurd hr hrecovering⟩
  have hcarries := h.live hlive
  rw [World.target, hpending] at hcarries
  exact hcarries

theorem Recovered.effect (hop : op.recovers = true) (h : Recovered defaults w r t) :
    Effect defaults a op w r t := by
  refine ⟨h.inv, .inl h.1, fun _ => ?_⟩
  obtain ⟨hconfirmed, -, h⟩ := h
  cases r with
  | ok => exact .inr ⟨hop, rfl, h.1, hconfirmed ▸ h.2.2⟩
  | error => exact .inl ⟨h, nofun⟩

theorem tick_spec (h : Inv defaults w) :
    (tick a).wp (Effect defaults a .tick w) (Cut defaults a .tick w) w := by
  simp only [tick, wp_bind, wp_read, after_ok]
  refine ⟨h.stored.cut, ?_⟩
  split_ifs with hdue
  · simp only [wp_bind, wp_attempt]
    refine Prog.wp.imp (rollbackLocked_spec h.toKept) (fun r t ht => ?_) fun t ht => ht.cut
    have hcut : Cut defaults a .tick w t := (ht.1 ▸ ht.2.1.stored).cut
    cases r with
    | ok => exact ⟨hcut, ht.effect rfl⟩
    | error e =>
    obtain ⟨hconfirmed, hkept, hrecovering⟩ := ht
    simp only [after_ok, wp_bind]
    refine ⟨hcut, hcut, hcut, ⟨⟨⟨hkept.stored, hkept.valid⟩, fun hlive => ?_⟩, .inl hconfirmed,
      fun _ => .inl ⟨hrecovering, by simp⟩⟩⟩
    exact absurd (hrecovering.symm.trans hlive) (by simp)
  · exact ⟨h.stored.cut, h.effect_same fun hr => absurd (.inl hr) hdue⟩

theorem rollback_spec (h : Inv defaults w) :
    (rollback a).wp (fun r t => Effect defaults a .rollback w (r.map fun _ => ()) t)
      (Cut defaults a .rollback w) w := by
  simp only [rollback, wp_bind]
  refine Prog.wp.imp (rollbackLocked_spec h.toKept) (fun r t ht => ?_) fun t ht => ht.cut
  cases r with
  | ok =>
    rw [after_ok, wp_read]
    exact ⟨(ht.1 ▸ ht.2.1.stored).cut, ht.effect rfl⟩
  | error e => exact ht.effect rfl

theorem Op.run_spec (h : Inv defaults w) :
    (op.run a).wp (Effect defaults a op w) (Cut defaults a op w) w := by
  cases op with
  | update => exact wp_map.2 (update_spec h)
  | confirm => exact wp_map.2 (confirm_spec h)
  | rollback => exact wp_map.2 (rollback_spec h)
  | tick => exact tick_spec h

/-! ## Runs -/

inductive Event
  | call (op : Op) (a : Answers) (answer : Except String Unit)
  /-- The engine stops during an operation and is started again. -/
  | crash (op : Op) (a : Answers)
  | restart

variable (defaults) in
def Step (w : World) : Event → World → Prop
  | .call op a answer, w' => (op.run a).exec w = (answer, w')
  | .crash op a, w' => ∃ t ∈ (op.run a).visits w, Webui.restart defaults t = some w'
  | .restart, w' => Webui.restart defaults w = some w'

def Started (defaults : Except String ListenerPorts) (w : World) : Prop :=
  ∃ found, restart defaults found = some w

/-- The event is a confirmation of these ports, even if the engine stopped before it returned. -/
def Event.Confirms (w : World) (ports : ListenerPorts) : Event → Prop
  | .call op a answer => answer = .ok () ∧ op.Confirms a w ports
  | .crash op a => op.Confirms a w ports
  | .restart => False

theorem restart_spec (h : restart defaults w = some w') :
    Inv defaults w' ∧ w'.recovering = true ∧ ∀ ports, Stored defaults ports w.disk →
      w'.state.confirmed = ports := by
  unfold restart at h
  rcases hload : load defaults w.disk with e | state <;> rw [hload] at h
  · nomatch h
  cases h
  refine ⟨⟨⟨⟨state, hload, rfl⟩, by simp⟩, nofun⟩, rfl, ?_⟩
  rintro ports ⟨state', hload', rfl⟩
  rw [hload] at hload'
  cases hload'
  rfl

theorem Inv.effect (h : Inv defaults w) (hstep : Step defaults w (.call op a answer) w') :
    Effect defaults a op w answer w' := by
  have hspec : (op.run a).wp (Effect defaults a op w) (Cut defaults a op w) w := Op.run_spec h
  have heffect := exec_of_wp hspec
  rwa [show (op.run a).exec w = (answer, w') from hstep] at heffect

theorem Inv.step {e : Event} (h : Inv defaults w) (hstep : Step defaults w e w') :
    Inv defaults w' ∧ (w'.state.confirmed = w.state.confirmed ∨
      e.Confirms w w'.state.confirmed) := by
  cases e with
  | call op a answer =>
    have heffect := h.effect hstep
    exact ⟨heffect.inv, heffect.confirmed⟩
  | crash op a =>
    obtain ⟨t, ht, hrestart⟩ := hstep
    obtain ⟨ports, hstored, hports⟩ := visits_of_wp (Op.run_spec h) ht
    obtain ⟨hinv, -, hconfirmed⟩ := restart_spec hrestart
    rw [hconfirmed ports hstored]
    exact ⟨hinv, hports⟩
  | restart =>
    obtain ⟨hinv, -, hconfirmed⟩ := restart_spec hstep
    exact ⟨hinv, .inl (hconfirmed _ h.stored)⟩

theorem inv_run {start : World} (hstart : Started defaults start)
    (hrun : Run (Step defaults) start es w) : Inv defaults w := by
  obtain ⟨found, hfound⟩ := hstart
  exact hrun.inv (restart_spec hfound).1 fun t e u ht hstep => (ht.step hstep).1

def Event.Recovers : Event → Prop
  | .call op _ answer => op.recovers ∧ answer = .ok ()
  | _ => False

theorem Inv.recovering_step {e : Event} (h : Inv defaults w) (hr : w.recovering = true)
    (hstep : Step defaults w e w') (he : ¬ e.Recovers) : w'.recovering = true := by
  cases e with
  | call op a answer =>
    have heffect := h.effect hstep
    obtain ⟨hr', -⟩ | ⟨hop, hok, -⟩ := heffect.recovered hr
    · exact hr'
    · exact absurd ⟨hop, hok⟩ he
  | crash op a =>
    obtain ⟨t, ht, hrestart⟩ := hstep
    exact (restart_spec hrestart).2.1
  | restart => exact (restart_spec hstep).2.1

theorem Inv.recovering_run (h : Inv defaults w) (hr : w.recovering = true)
    (hrun : Run (Step defaults) w es w') (hes : ∀ e ∈ es, ¬ e.Recovers) :
    Inv defaults w' ∧ w'.recovering = true := by
  induction hrun with
  | nil => exact ⟨h, hr⟩
  | snoc _ hstep ih =>
    obtain ⟨hinv, hrecovering⟩ := ih fun e he => hes e (List.mem_append_left _ he)
    exact ⟨(hinv.step hstep).1,
      hinv.recovering_step hrecovering hstep (hes _ (List.mem_append_right _ (.head _)))⟩

theorem Inv.recovering_call (h : Inv defaults w) (hr : w.recovering = true)
    (hstep : Step defaults w (.call op a answer) w') :
    answer ≠ .ok () ∨ op.recovers ∧ w'.recovering = false ∧ Carries w' w'.state.confirmed := by
  have heffect := h.effect hstep
  obtain ⟨-, hne⟩ | ⟨hop, -, hlive, hcarries⟩ := heffect.recovered hr
  · exact .inl hne
  · exact .inr ⟨hop, hlive, hcarries⟩

/-- **Listener changes.** File, memory, Caddy and the firewall agree on the ports unless the engine
is recovering, and only a confirmation in time changes the confirmed ones. -/
theorem listeners_agree {start : World} {es : List Event} (hstart : Started defaults start)
    (hrun : Run (Step defaults) start es w) :
    (w.recovering = false → Carries w w.target) ∧
    Stored defaults w.state.confirmed w.disk ∧
    (∀ e w', Step defaults w e w' → w'.state.confirmed ≠ w.state.confirmed →
      e.Confirms w w'.state.confirmed) ∧
    ∀ e w₁ es' w₂, (e = .restart ∨ ∃ op a, e = .crash op a) → Step defaults w e w₁ →
      Run (Step defaults) w₁ es' w₂ → (∀ e ∈ es', ¬ e.Recovers) →
      ∀ op a w', Step defaults w₂ (.call op a (.ok ())) w' →
        op.recovers ∧ w'.recovering = false ∧ Carries w' w'.state.confirmed := by
  have h := inv_run hstart hrun
  refine ⟨h.live, h.stored, fun e w' hstep hne => (h.step hstep).2.resolve_left hne, ?_⟩
  intro e w₁ es' w₂ he hstep hrun' hes op a w' hcall
  have hr : w₁.recovering = true := by
    rcases he with rfl | ⟨op, a, rfl⟩
    · exact (restart_spec hstep).2.1
    · obtain ⟨t, ht, hrestart⟩ := hstep
      exact (restart_spec hrestart).2.1
  obtain ⟨hinv, hrecovering⟩ := (h.step hstep).1.recovering_run hr hrun' hes
  exact (hinv.recovering_call hrecovering hcall).resolve_left (not_not.2 rfl)

def smooth : Answers where
  now := 1000
  txnId := "t"
  save := none
  firewall := .ok
  caddy := .ok
  health := .answered true
  later := 1010
  restoreCaddy := .ok
  restoreFirewall := .ok
  restoreSave := none

def webPorts : ListenerPorts := ⟨443, some 80⟩
def newPorts : ListenerPorts := ⟨8443, some 80⟩

def booted : World := ⟨none, none, none, ⟨webPorts, none, none⟩, true⟩

def proposed : ListenerState := ⟨webPorts, some ⟨"t", newPorts, 1030⟩, none⟩

theorem listeners_agree_proposed :
    ∃ w, Run (Step (.ok webPorts)) booted
        [.call .rollback smooth (.ok ()), .call (.update newPorts) smooth (.ok ())] w ∧
      w.disk = some proposed ∧ w.state = proposed ∧ Carries w newPorts ∧
      ∀ e w', Step (.ok webPorts) w e w' → w'.state.confirmed ≠ webPorts →
        e.Confirms w w'.state.confirmed := by
  have hstart : Started (.ok webPorts) booted := ⟨booted, by decide⟩
  have hrollback : Step (.ok webPorts) booted (.call .rollback smooth (.ok ()))
      ⟨none, some webPorts, some webPorts, ⟨webPorts, none, none⟩, false⟩ := rfl
  have hrun : Run (Step (.ok webPorts)) booted
      [.call .rollback smooth (.ok ()), .call (.update newPorts) smooth (.ok ())]
      ⟨some proposed, some newPorts, some newPorts, proposed, false⟩ :=
    .snoc (.snoc .nil hrollback) rfl
  obtain ⟨hcarries, -, hconfirms, -⟩ := listeners_agree hstart hrun
  exact ⟨_, hrun, rfl, rfl, hcarries rfl, hconfirms⟩

end Nasty.Webui
