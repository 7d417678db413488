import Nasty.Lib.Flags

/-!
# Stopping virtual machines

Before a filesystem is locked or a subvolume is rolled back, the virtual machines with a disk on it
are stopped: the power button, a minute of polling, then a kill. `Env` says how the outside world
answers; `quiesceVm` is one pass of that loop. The two callers differ in the key they pass to the VM
service and in how they look up whether the machine is running.

1. `quiesceVm_of_stopped`: a machine that is not running is left alone.
2. `quiesceVm_by_id`: looked up and addressed by its id, a running machine is stopped unless it
   `resists`.
-/

namespace Nasty.Cascade

abbrev Name := List Char

structure Disk where
  path : Name
  source : Option Name

structure Vm where
  id : Name
  name : Name
  disks : List Disk
  running : Bool

inductive VmError
  | notFound (id : Name)
  | notRunning (name : Name)
  | qmp (text : String)
  deriving DecidableEq

def VmError.message : VmError → String
  | notFound id => "VM not found: " ++ .ofList id
  | notRunning name => "VM is not running: " ++ .ofList name
  | qmp text => "QMP error: " ++ text

/-! ## The outside world -/

/-- What becomes of a `kill`. It can fail though the machine runs, and does not look whether the
process is gone. -/
inductive Kill
  | killed
  | survived
  | failed (e : VmError)
  deriving DecidableEq

def Kill.fails : Kill → Bool
  | .failed _ => true
  | _ => false

structure Env where
  appStop : Name → Option String
  powerdown : Name → Option String
  /-- The second after the power button in which the guest is off, if it obeys. -/
  shutdown : Name → Option ℕ
  kill : Name → Kill

/-! ## The VM service -/

def Vm.byId : FlagField Vm Name where
  key := Vm.id
  get := Vm.running
  set b v := { v with running := b }
  key_set _ _ := rfl
  get_set _ _ := rfl

abbrev setRunning : Bool → Name → List Vm → List Vm := Vm.byId.put

def stop (env : Env) (id : Name) (vms : List Vm) : Except VmError Unit :=
  match vms.find? (·.id = id) with
  | none => .error (.notFound id)
  | some v =>
    if !v.running then .error (.notRunning v.name)
    else match env.powerdown id with
      | some e => .error (.qmp ("system_powerdown: " ++ e))
      | none => .ok ()

def kill (env : Env) (id : Name) (vms : List Vm) : Except VmError Unit × List Vm :=
  match vms.find? (·.id = id) with
  | none => (.error (.notFound id), vms)
  | some v =>
    if !v.running then (.error (.notRunning v.name), vms)
    else match env.kill id with
      | .killed => (.ok (), setRunning false id vms)
      | .survived => (.ok (), vms)
      | .failed e => (.error e, vms)

def start (id : Name) (vms : List Vm) : List Vm := setRunning true id vms

/-- The machines `t` seconds after the power button of one of them. -/
def pressed (env : Env) (id : Name) (vms : List Vm) (t : ℕ) : List Vm :=
  if (env.shutdown id).any (· ≤ t) then setRunning false id vms else vms

/-! ## The cascade's loop -/

def vmShutdownTimeout : ℕ := 60

/-- Poll once a second; the second in which the wait ended, if it ended well. -/
def waitUntilStopped (predicate : ℕ → Bool) : (polls now : ℕ) → Option ℕ
  | 0, now => if predicate now then some now else none
  | polls + 1, now => if predicate now then some now else waitUntilStopped predicate polls (now + 1)

def isVmRunning (is : Vm → Bool) (vms : List Vm) : Bool := (vms.find? is).any (·.running)

/-- `is` looks the machine up, `key` is what the VM service is given. The kill comes after the last
poll. -/
def quiesceVm (env : Env) (is : Vm → Bool) (key : Name) (vms : List Vm) :
    Except VmError Unit × List Vm :=
  if !isVmRunning is vms then (.ok (), vms)
  else match stop env key vms with
    | .error _ => kill env key vms
    | .ok () =>
      match waitUntilStopped (fun t => !isVmRunning is (pressed env key vms t))
        vmShutdownTimeout 0 with
      | some t => (.ok (), pressed env key vms t)
      | none => kill env key (pressed env key vms (vmShutdownTimeout + 1))

theorem quiesceVm_of_stopped {is : Vm → Bool} {vms : List Vm} (h : isVmRunning is vms = false)
    (env : Env) (key : Name) : quiesceVm env is key vms = (.ok (), vms) := by
  rw [quiesceVm, h]
  rfl

/-! ## Waiting -/

theorem waitUntilStopped_eq_none {p : ℕ → Bool} {polls now : ℕ} :
    waitUntilStopped p polls now = none ↔ ∀ t, now ≤ t → t ≤ now + polls → p t = false := by
  induction polls generalizing now with
  | zero =>
    rw [waitUntilStopped]
    constructor
    · intro h t h1 h2
      obtain rfl : t = now := by omega
      simpa using h
    · intro h
      rw [h now (Nat.le_refl _) (by omega)]
      rfl
  | succ polls ih =>
    rw [waitUntilStopped]
    constructor
    · intro h t h1 h2
      by_cases hp : p now
      · rw [if_pos hp] at h
        cases h
      rw [if_neg hp, ih] at h
      by_cases ht : t = now
      · rw [ht]
        simpa using hp
      · exact h t (by omega) (by omega)
    · intro h
      have hnow := h now (Nat.le_refl _) (by omega)
      rw [if_neg (by simp [hnow]), ih]
      intro t h1 h2
      exact h t (by omega) (by omega)

theorem of_waitUntilStopped_eq_some {p : ℕ → Bool} {polls now t : ℕ}
    (h : waitUntilStopped p polls now = some t) : p t = true ∧ t ≤ now + polls := by
  induction polls generalizing now with
  | zero =>
    rw [waitUntilStopped] at h
    split at h
    · next hp =>
      cases h
      exact ⟨hp, by omega⟩
    · cases h
  | succ polls ih =>
  rw [waitUntilStopped] at h
  split at h
  · next hp =>
    cases h
    exact ⟨hp, by omega⟩
  · obtain ⟨hp, ht⟩ := ih h
    exact ⟨hp, by omega⟩

/-! ## Machines by their id -/

section

variable {env : Env} {vms : List Vm} {v : Vm} {id : Name}

def Env.Obeys (env : Env) (id : Name) : Prop :=
  env.powerdown id = none ∧ (env.shutdown id).any (· ≤ vmShutdownTimeout)

def Env.Late (env : Env) (id : Name) : Prop :=
  env.powerdown id = none ∧ env.shutdown id = some (vmShutdownTimeout + 1)

instance Env.decidableObeys (env : Env) (id : Name) : Decidable (env.Obeys id) := by
  unfold Env.Obeys; infer_instance

instance Env.decidableLate (env : Env) (id : Name) : Decidable (env.Late id) := by
  unfold Env.Late; infer_instance

def Env.Downs (env : Env) (id : Name) : Prop := env.Obeys id ∨ env.Late id ∨ env.kill id = .killed

instance Env.decidableDowns (env : Env) (id : Name) : Decidable (env.Downs id) := by
  unfold Env.Downs; infer_instance

def Env.Resists (env : Env) (id : Name) : Prop :=
  ¬ env.Obeys id ∧ (env.Late id ∨ (env.kill id).fails)

instance Env.decidableResists (env : Env) (id : Name) : Decidable (env.Resists id) := by
  unfold Env.Resists; infer_instance

abbrev runningAt (vms : List Vm) (id : Name) : Bool := Vm.byId.flagAt vms id

theorem exists_of_runningAt (h : runningAt vms id) :
    ∃ v, vms.find? (·.id = id) = some v ∧ v.running = true := by
  rw [runningAt, FlagField.flagAt, Option.any_eq_true] at h
  exact h

theorem isVmRunning_byId : isVmRunning (·.id = id) vms = runningAt vms id := rfl

theorem runningAt_pressed (h : runningAt vms id) (t : ℕ) :
    runningAt (pressed env id vms t) id = !(env.shutdown id).any (· ≤ t) := by
  rw [pressed]
  split
  · next hoff =>
    rw [hoff, runningAt, FlagField.flagAt_put, if_pos rfl]
    rfl
  · next hon =>
    rw [h]
    simpa using hon

theorem stop_of_running (h : runningAt vms id) :
    stop env id vms = match env.powerdown id with
      | some e => .error (.qmp ("system_powerdown: " ++ e))
      | none => .ok () := by
  obtain ⟨v, hv, hrun⟩ := exists_of_runningAt h
  rw [stop, hv]
  simp only [hrun, Bool.not_true, Bool.false_eq_true, if_false]

theorem kill_of_running (h : runningAt vms id) :
    kill env id vms = match env.kill id with
      | .killed => (.ok (), setRunning false id vms)
      | .survived => (.ok (), vms)
      | .failed e => (.error e, vms) := by
  obtain ⟨v, hv, hrun⟩ := exists_of_runningAt h
  rw [kill, hv]
  simp only [hrun, Bool.not_true, Bool.false_eq_true, if_false]

section

variable (h : runningAt vms id = false)
include h

theorem not_running_of_find? (hv : vms.find? (·.id = id) = some v) : v.running = false := by
  change (vms.find? (·.id = id)).any (·.running) = false at h
  rw [hv] at h
  exact h

theorem stop_of_stopped (env : Env) : ∃ e, stop env id vms = .error e := by
  rw [stop]
  split
  · exact ⟨_, rfl⟩
  · next v hv =>
    rw [not_running_of_find? h hv]
    exact ⟨_, rfl⟩

theorem kill_of_stopped (env : Env) : ∃ e, kill env id vms = (.error e, vms) := by
  rw [kill]
  split
  · exact ⟨_, rfl⟩
  · next v hv =>
    rw [not_running_of_find? h hv]
    exact ⟨_, rfl⟩

end

theorem setRunning_false_stopped : runningAt (setRunning false id vms) id = false := by
  rw [runningAt, FlagField.flagAt_put, if_pos rfl]
  rfl

theorem pressed_of_off {t : ℕ} (h : (env.shutdown id).any (· ≤ t)) :
    pressed env id vms t = setRunning false id vms := if_pos h

theorem kill_spec (h : runningAt vms id) (hobeys : ¬ env.Obeys id) (hlate : ¬ env.Late id) :
    ((∃ e, (kill env id vms).1 = .error e) ↔ env.Resists id) ∧
      (kill env id vms).2 = if env.Downs id then setRunning false id vms else vms := by
  rw [kill_of_running h]
  cases hkill : env.kill id <;> simp [Env.Resists, Env.Downs, Kill.fails, hobeys, hlate, hkill]

theorem quiesceVm_by_id (h : runningAt vms id) (env : Env) :
    ((∃ e, (quiesceVm env (·.id = id) id vms).1 = .error e) ↔ env.Resists id) ∧
      (quiesceVm env (·.id = id) id vms).2 =
        if env.Downs id then setRunning false id vms else vms := by
  rw [quiesceVm, isVmRunning_byId, h]
  rw [stop_of_running h]
  cases hp : env.powerdown id with
  | some e =>
    exact kill_spec h (fun ho => by simp [ho.1] at hp) (fun hl => by simp [hl.1] at hp)
  | none =>
  simp only [isVmRunning_byId, runningAt_pressed h, Bool.not_not]
  cases hw : waitUntilStopped (fun t => (env.shutdown id).any (· ≤ t)) vmShutdownTimeout 0 with
  | some t =>
    obtain ⟨hoff, ht⟩ := of_waitUntilStopped_eq_some hw
    obtain ⟨s, hs, hst⟩ := (Option.any_eq_true _ _).1 hoff
    have hobeys : env.Obeys id := by
      refine ⟨hp, ?_⟩
      rw [hs]
      simp only [Option.any_some, decide_eq_true_eq] at hst ⊢
      omega
    simp [pressed_of_off hoff, Env.Resists, Env.Downs, hobeys]
  | none =>
    rw [waitUntilStopped_eq_none] at hw
    have hon := hw vmShutdownTimeout (Nat.zero_le _) (by omega)
    have hobeys : ¬ env.Obeys id := fun ho => by simp [ho.2] at hon
    by_cases hlate : env.Late id
    · have hoff : (env.shutdown id).any (· ≤ vmShutdownTimeout + 1) := by
        rw [hlate.2]
        simp
      have hdown : runningAt (setRunning false id vms) id = false := setRunning_false_stopped
      obtain ⟨e, hkill⟩ := kill_of_stopped hdown env
      simp only [pressed_of_off hoff, hkill]
      simp [Env.Resists, Env.Downs, hobeys, hlate]
    have hstill : ¬ (env.shutdown id).any (· ≤ vmShutdownTimeout + 1) := by
      intro hoff
      obtain ⟨s, hs, hst⟩ := (Option.any_eq_true _ _).1 hoff
      rw [hs] at hon
      simp only [Option.any_some, decide_eq_false_iff_not, decide_eq_true_eq] at hon hst
      have hs' : s = vmShutdownTimeout + 1 := by omega
      exact hlate ⟨hp, hs' ▸ hs⟩
    simp only [pressed, if_neg hstill]
    exact kill_spec h hobeys hlate

end

end Nasty.Cascade
