import Mathlib.Data.List.AList
import Nasty.Lib.Lts
import Nasty.Network.Prepare
import Nasty.Network.Risk
import Nasty.Network.Validate

/-!
# Network transactions

`NetworkService` applies a risky update with a rollback window: it snapshots the old
configuration to the pending-revert file, persists and applies the new one, and spawns a timer.
`confirm` removes the snapshot and the table entry; the timer restores the snapshot. Updates,
confirmations and expiries each run under the lifecycle lock, so each is one step here. What the
disk, the kernel and NetworkManager answer is in the environment argument of a step.
-/

namespace Nasty.Network

/-! ## State -/

inductive Stored (α : Type)
  | absent
  | unreadable
  | unparseable
  | value (a : α)
  deriving DecidableEq

def Stored.load {α : Type} [Inhabited α] : Stored α → α
  | .value a => a
  | _ => default

/-- A pending rollback. `cancel` is true while the confirmation window is open. -/
structure PendingTxn where
  revertAtUnix : UInt64
  riskReason : String
  cancel : Bool

/-- The two files, the transactions, the timers that have not fired, and the ids handed out. -/
structure State where
  config : Stored NetworkConfig
  pendingRevert : Stored NetworkConfig
  transactions : AList fun _ : String => PendingTxn
  timers : List String
  counter : UInt64

def loadConfig (s : State) : NetworkConfig := s.config.load

/-! ## Update -/

structure UpdateRequest where
  config : NetworkConfig
  confirmWithinSecs : Option UInt64 := none

structure UpdateResponse where
  txnId : Option String := none
  revertAtUnix : Option UInt64 := none
  riskReason : Option String := none
  applyErrors : List (String × String) := []
  deriving DecidableEq

inductive UpdateError
  | awaitingConfirmation (txnId : String)
  | requiresRecovery
  | invalid (e : String)
  | snapshot (e : String)
  | rejected (e : String)
  | write (e : String)
  | apply (e : String)
  deriving DecidableEq

def UpdateError.message : UpdateError → String
  | .awaitingConfirmation txnId => s!"network transaction {txnId} is still awaiting confirmation"
  | .requiresRecovery =>
    "a pending network rollback snapshot requires recovery before another update"
  | .invalid e => e
  | .snapshot e => s!"write /var/lib/nasty/networking.json.pending-revert: {e}"
  | .rejected e => s!"network config rejected by validator: {e}"
  | .write e => s!"failed to write /var/lib/nasty/networking.json: {e}"
  | .apply e => e

/-- The live network, the errors of the two writes, the outcomes of the two applies, and the clock.
-/
structure UpdateEnv where
  live : LiveTopology := {}
  liveIfaces : List LiveInterface := []
  snapshotWrite : Option String := none
  configWrite : Option String := none
  apply : Except String (List (String × String)) := .ok []
  reapply : Except String (List (String × String)) := .ok []
  idSecs : UInt64 := 0
  unixNow : UInt64 := 0

/-- Validate, then write; an atomic write that fails leaves the old file. -/
def persistConfig (write : Option String) (config : NetworkConfig) : Except UpdateError Unit :=
  match Layered.validate (Layered.toLayered config) with
  | .error e => .error (.rejected e)
  | .ok () =>
    match write with
    | some e => .error (.write e)
    | none => .ok ()

def applyWithVfSettle (env : UpdateEnv) (config : NetworkConfig) :
    Except UpdateError (List (String × String)) :=
  let createsVfs := config.interfaces.any fun i => i.sriovNumVfs.getD 0 > 0
  let hasAbsentConfig := config.interfaces.any fun i => i.name ∉ env.liveIfaces.map (·.name)
  match env.apply with
  | .error e => .error (.apply e)
  | .ok outcome =>
    if createsVfs ∧ hasAbsentConfig then env.reapply.mapError .apply else .ok outcome

/-- Persist and apply; once persisted, a failing apply leaves the new configuration on disk. -/
def persistAndApply (env : UpdateEnv) (config : NetworkConfig) (s : State) :
    Except UpdateError (List (String × String)) × State :=
  match persistConfig env.configWrite config with
  | .error e => (.error e, s)
  | .ok () => (applyWithVfSettle env config, { s with config := .value config })

def txnId (secs n : UInt64) : String :=
  String.ofList (Nat.toDigits 16 secs.toNat ++ '-' :: Nat.toDigits 16 n.toNat)

/-- The rollback window: zero opts out, and without a request only a risky change gets one. -/
def rollbackSecs (confirmWithinSecs : Option UInt64) (riskReason : Option String) :
    Option UInt64 :=
  match confirmWithinSecs, riskReason with
  | some 0, _ => none
  | some n, _ => some n
  | none, some _ => some 30
  | none, none => none

def scheduleRollback (s : State) (id : String) (txn : PendingTxn) : State :=
  { s with transactions := s.transactions.insert id txn, timers := id :: s.timers,
           counter := s.counter + 1 }

def commitUpdate (s : State) (config : NetworkConfig) (secs : Option UInt64)
    (riskReason : Option String) (env : UpdateEnv) :
    Except UpdateError UpdateResponse × State :=
  match secs with
  | none =>
    match persistAndApply env config s with
    | (.error e, s) => (.error e, s)
    | (.ok applyErrors, s) => (.ok { applyErrors }, s)
  | some secs =>
    match env.snapshotWrite with
    | some e => (.error (.snapshot e), s)
    | none =>
      match persistAndApply env config { s with pendingRevert := .value (loadConfig s) } with
      | (.error e, s) => (.error e, s)
      | (.ok applyErrors, s) =>
        let id := txnId env.idSecs s.counter
        let revertAtUnix := env.unixNow + secs
        let riskReason := riskReason.getD "explicit confirm requested"
        (.ok { txnId := some id, revertAtUnix := some revertAtUnix,
               riskReason := some riskReason, applyErrors },
          scheduleRollback s id { revertAtUnix, riskReason, cancel := true })

def update (s : State) (request : UpdateRequest) (mgmtIface : Option String) (env : UpdateEnv) :
    Except UpdateError UpdateResponse × State :=
  match s.transactions.keys.head? with
  | some id => (.error (.awaitingConfirmation id), s)
  | none =>
    if s.pendingRevert ≠ .absent then (.error .requiresRecovery, s)
    else
      let prev := loadConfig s
      match checkUpdate request.config prev mgmtIface env.live env.liveIfaces with
      | .error e => (.error (.invalid e), s)
      | .ok () =>
        let config := resolved request.config prev env.live env.liveIfaces
        let riskReason := classifyRisk prev config mgmtIface
        commitUpdate s config (rollbackSecs request.confirmWithinSecs riskReason) riskReason env

/-! ## Confirm -/

inductive ConfirmError
  | unknown (txnId : String)
  | rolledBack (txnId : String)
  | remove (e : String)

def ConfirmError.message : ConfirmError → String
  | .unknown txnId => s!"unknown or already-completed txn_id {txnId}"
  | .rolledBack txnId => s!"network txn {txnId} rollback is already in progress or failed"
  | .remove e => s!"remove pending network rollback snapshot: {e}"

/-- `removeError` is the error of removing the snapshot, if it is other than not found. -/
def confirm (s : State) (id : String) (removeError : Option String) :
    Except ConfirmError Unit × State :=
  match s.transactions.lookup id with
  | none => (.error (.unknown id), s)
  | some txn =>
    if ¬ txn.cancel then (.error (.rolledBack id), s)
    else
      match removeError with
      | some e => (.error (.remove e), s)
      | none =>
        (.ok (), { s with pendingRevert := .absent, transactions := s.transactions.erase id })

/-! ## Timeout and restart -/

/-- The answers a restore gets: the errors of reading, parsing, writing, applying and removing. -/
structure RestoreEnv where
  readError : Option String := none
  parseError : String := ""
  configWrite : Option String := none
  apply : Except String (List (String × String)) := .ok []
  removeError : Option String := none

def readSnapshot (s : State) (env : RestoreEnv) : Except String NetworkConfig :=
  match s.pendingRevert, env.readError with
  | .value prev, none => .ok prev
  | .unparseable, none => .error s!"unparseable pending-revert: {env.parseError}"
  | _, e =>
    let text := e.getD "No such file or directory (os error 2)"
    .error s!"pending-revert file disappeared: {text}"

def performRollback (s : State) (env : RestoreEnv) : Except String Unit × State :=
  match readSnapshot s env with
  | .error e => (.error e, s)
  | .ok prev =>
    match persistConfig env.configWrite prev with
    | .error e => (.error s!"persist failed: {e.message}", s)
    | .ok () =>
      let s := { s with config := .value prev }
      match env.apply with
      | .error e => (.error s!"apply failed: {e}", s)
      | .ok _ =>
        match env.removeError with
        | some e => (.error s!"remove pending-revert after apply: {e}", s)
        | none => (.ok (), { s with pendingRevert := .absent })

/-- The timer branch of the spawned task; `none` when the entry is gone and nothing is rolled
back. -/
def timeout (s : State) (id : String) (env : RestoreEnv) :
    Option (Except String Unit) × State :=
  let s := { s with timers := s.timers.erase id }
  match s.transactions.lookup id with
  | none => (none, s)
  | some txn =>
    -- the window is closed first, so that a failed rollback cannot be confirmed
    let txn := { txn with cancel := false }
    let s := { s with transactions := s.transactions.insert id txn }
    match performRollback s env with
    | (.ok (), s) => (some (.ok ()), { s with transactions := s.transactions.erase id })
    | (.error e, s) =>
      let txn := { txn with riskReason := s!"Automatic rollback failed: {e}" }
      (some (.error e), { s with transactions := s.transactions.insert id txn })

def restorePendingRevert (s : State) (env : RestoreEnv) : State :=
  match s.pendingRevert, env.readError with
  | .unparseable, none =>
    if env.removeError.isNone then { s with pendingRevert := .absent } else s
  | .value prev, none =>
    match persistConfig env.configWrite prev, env.apply with
    | .error _, _ => s
    | .ok (), .error _ => { s with config := .value prev }
    | .ok (), .ok _ =>
      { s with config := .value prev
               pendingRevert := if env.removeError.isNone then .absent else s.pendingRevert }
  | _, _ => s

/-- A crash loses memory, and the new process restores a snapshot. A crash within a step leaves the
disk of a step that fails there. -/
def restart (s : State) (env : RestoreEnv) : State :=
  restorePendingRevert { s with transactions := ∅, timers := [], counter := 0 } env

/-! ## The protocol -/

inductive Event
  | update (request : UpdateRequest) (mgmtIface : Option String) (env : UpdateEnv)
      (result : Except UpdateError UpdateResponse)
  | confirm (id : String) (removeError : Option String) (result : Except ConfirmError Unit)
  | timeout (id : String) (env : RestoreEnv) (result : Option (Except String Unit))
  | restart (env : RestoreEnv)

/-- One step. A timer fires once, and it may fire after a confirmation it raced with. -/
def Step (s : State) (e : Event) (t : State) : Prop :=
  match e with
  | .update request mgmtIface env result => update s request mgmtIface env = (result, t)
  | .confirm id removeError result => confirm s id removeError = (result, t)
  | .timeout id env result => id ∈ s.timers ∧ timeout s id env = (result, t)
  | .restart env => restart s env = t

def Fresh (s : State) : Prop := s.transactions = ∅ ∧ s.timers = [] ∧ s.counter = 0

/-! ## What each step can do -/

section

variable {s t : State} {config : NetworkConfig} {id : String}

theorem head?_keys_eq_none {m : AList fun _ : String => PendingTxn} :
    m.keys.head? = none ↔ m = ∅ := by
  rw [List.head?_eq_none_iff, AList.keys, List.keys, List.map_eq_nil_iff]
  exact ⟨fun h => AList.ext h, fun h => h ▸ rfl⟩

theorem persistAndApply_state (env : UpdateEnv) (config : NetworkConfig) (s : State) :
    ∃ c, (persistAndApply env config s).2 = { s with config := c } := by
  unfold persistAndApply
  split
  · exact ⟨s.config, rfl⟩
  · exact ⟨.value config, rfl⟩

def NoneOpened (s t : State) (result : Except UpdateError UpdateResponse) : Prop :=
  t.transactions = s.transactions ∧ t.timers = s.timers ∧ t.counter = s.counter ∧
    ∀ response, result = .ok response → response.txnId = none

/-- A transaction was opened under the next id, with the old configuration as its snapshot. -/
def Opened (s t : State) (secs : UInt64) (result : Except UpdateError UpdateResponse) : Prop :=
  ∃ c txn, txn.cancel = true ∧
    (∀ response, result = .ok response → response.txnId = some (txnId secs s.counter)) ∧
    t = scheduleRollback { s with config := c, pendingRevert := .value (loadConfig s) }
      (txnId secs s.counter) txn

theorem noneOpened_error (s : State) (e : UpdateError) : NoneOpened s s (.error e) :=
  ⟨rfl, rfl, rfl, fun _ h => by cases h⟩

variable {result : Except UpdateError UpdateResponse} {env : RestoreEnv}

theorem commitUpdate_cases {secs : Option UInt64} {riskReason : Option String} {env : UpdateEnv}
    (h : commitUpdate s config secs riskReason env = (result, t)) :
    NoneOpened s t result ∨ Opened s t env.idSecs result := by
  unfold commitUpdate at h
  rcases secs with _ | secs
  · obtain ⟨c, hc⟩ := persistAndApply_state env config s
    rcases hp : persistAndApply env config s with ⟨_ | applyErrors, s'⟩ <;>
      rw [hp] at h hc <;> obtain rfl : s' = { s with config := c } := hc <;>
      cases h
    · exact .inl ⟨rfl, rfl, rfl, fun _ h => by cases h⟩
    · exact .inl ⟨rfl, rfl, rfl, fun _ h => by cases h; rfl⟩
  rcases hw : env.snapshotWrite with _ | e <;> rw [hw] at h
  · obtain ⟨c, hc⟩ := persistAndApply_state env config
      { s with pendingRevert := .value (loadConfig s) }
    rcases hp : persistAndApply env config { s with pendingRevert := .value (loadConfig s) }
      with ⟨_ | applyErrors, s'⟩ <;> rw [hp] at h hc <;>
      obtain rfl : s' = { s with config := c, pendingRevert := .value (loadConfig s) } := hc <;>
      cases h
    · exact .inl ⟨rfl, rfl, rfl, fun _ h => by cases h⟩
    · exact .inr ⟨c, _, rfl, fun _ h => by cases h; rfl, rfl⟩
  · cases h
    exact .inl (noneOpened_error _ _)

/-- **Update.** An update changes neither memory nor snapshot while a transaction is open; on an
empty table it may open one. -/
theorem update_cases {request : UpdateRequest} {mgmtIface : Option String} {env : UpdateEnv}
    (h : update s request mgmtIface env = (result, t)) :
    (t = s ∧ NoneOpened s t result) ∨
      s.transactions = ∅ ∧ (NoneOpened s t result ∨ Opened s t env.idSecs result) := by
  unfold update at h
  rcases hk : s.transactions.keys.head? with _ | id <;> rw [hk] at h
  · refine .inr ⟨head?_keys_eq_none.1 hk, ?_⟩
    simp only at h
    split_ifs at h with hf
    · cases h
      exact .inl (noneOpened_error _ _)
    rcases hc : checkUpdate request.config (loadConfig s) mgmtIface env.live env.liveIfaces
      with e | _ <;> rw [hc] at h
    · cases h
      exact .inl (noneOpened_error _ _)
    · exact commitUpdate_cases h
  · cases h
    exact .inl ⟨rfl, noneOpened_error _ _⟩

/-- **Confirm.** A confirmation succeeds on an open window and then drops the entry and the
snapshot; a failing one changes nothing. -/
theorem confirm_cases {removeError : Option String} {result : Except ConfirmError Unit}
    (h : confirm s id removeError = (result, t)) :
    (t = s ∧ result ≠ .ok ()) ∨
      ∃ txn, s.transactions.lookup id = some txn ∧ txn.cancel = true ∧ result = .ok () ∧
        t = { s with pendingRevert := .absent, transactions := s.transactions.erase id } := by
  unfold confirm at h
  rcases hl : s.transactions.lookup id with _ | txn <;> rw [hl] at h
  · cases h
    exact .inl ⟨rfl, nofun⟩
  simp only at h
  by_cases hcancel : txn.cancel = true
  · rw [if_neg (not_not.2 hcancel)] at h
    rcases removeError with _ | e <;> cases h
    · exact .inr ⟨txn, rfl, hcancel, rfl, rfl⟩
    · exact .inl ⟨rfl, nofun⟩
  · rw [if_pos hcancel] at h
    cases h
    exact .inl ⟨rfl, nofun⟩

theorem readSnapshot_ok {prev : NetworkConfig} (h : readSnapshot s env = .ok prev) :
    s.pendingRevert = .value prev := by
  unfold readSnapshot at h
  split at h
  · next hp _ => rw [hp, Except.ok.inj h]
  · cases h
  · cases h

/-- A rollback that succeeds leaves the snapshot's configuration and no snapshot; one that fails
keeps the snapshot. -/
theorem performRollback_cases {result : Except String Unit}
    (h : performRollback s env = (result, t)) :
    (∃ prev, s.pendingRevert = .value prev ∧ result = .ok () ∧
        t = { s with config := .value prev, pendingRevert := .absent }) ∨
      ∃ e c, result = .error e ∧ t = { s with config := c } := by
  unfold performRollback at h
  rcases hr : readSnapshot s env with e | prev <;> rw [hr] at h
  · cases h
    exact .inr ⟨e, s.config, rfl, rfl⟩
  simp only at h
  rcases hp : persistConfig env.configWrite prev with e | _ <;> rw [hp] at h
  · cases h
    exact .inr ⟨_, s.config, rfl, rfl⟩
  rcases ha : env.apply with e | _ <;> rw [ha] at h
  · cases h
    exact .inr ⟨_, .value prev, rfl, rfl⟩
  rcases hm : env.removeError with _ | e <;> rw [hm] at h <;>
    cases h
  · exact .inl ⟨prev, readSnapshot_ok hr, rfl, rfl⟩
  · exact .inr ⟨_, .value prev, rfl, rfl⟩

theorem erase_insert (m : AList fun _ : String => PendingTxn) (id : String) (txn : PendingTxn) :
    (m.insert id txn).erase id = m.erase id :=
  AList.ext (List.kerase_cons_eq rfl)

/-- **Timeout.** A timer whose entry is gone only ends; otherwise the window is closed and the
snapshot restored or the entry kept. -/
theorem timeout_cases {result : Option (Except String Unit)} (h : timeout s id env = (result, t)) :
    (s.transactions.lookup id = none ∧ result = none ∧
        t = { s with timers := s.timers.erase id }) ∨
      s.transactions.lookup id ≠ none ∧
        ((∃ prev, s.pendingRevert = .value prev ∧ result = some (.ok ()) ∧
            t = { s with config := .value prev, pendingRevert := .absent,
                         timers := s.timers.erase id,
                         transactions := s.transactions.erase id }) ∨
          ∃ e c txn, txn.cancel = false ∧ result = some (.error e) ∧
            t = { s with config := c, timers := s.timers.erase id,
                         transactions := s.transactions.insert id txn }) := by
  unfold timeout at h
  simp only at h
  rcases hl : s.transactions.lookup id with _ | txn <;> rw [hl] at h
  · cases h
    exact .inl ⟨rfl, rfl, rfl⟩
  refine .inr ⟨nofun, ?_⟩
  simp only at h
  split at h
  · next s' hp =>
    cases h
    obtain ⟨prev, hprev, -, rfl⟩ | ⟨e, c, he, -⟩ := performRollback_cases hp
    · exact .inl ⟨prev, hprev, rfl, by rw [erase_insert]⟩
    · cases he
  next e s' hp =>
  cases h
  obtain ⟨prev, -, he, -⟩ | ⟨e, c, -, rfl⟩ := performRollback_cases hp
  · cases he
  · exact .inr ⟨_, c, _, rfl, rfl, by rw [AList.insert_insert]⟩

end

end Nasty.Network
