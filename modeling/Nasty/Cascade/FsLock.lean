import Nasty.Cascade.Dependents

/-!
# Locking a filesystem with its dependents

Before an encrypted filesystem is unmounted and its key revoked, the apps and the virtual machines
that depend on it are stopped. `lockWithDependents` hands over to `FilesystemService::lock` in the
state it returns.

The cascade hands the VM service the *name* of a machine where the service expects an id, and asks
for the first machine of that name whether it is running. `lock_reached_iff` says when the lock is
reached all the same, whatever the guests do.
-/

namespace Nasty.Cascade

/-! ## The cascade -/

def stopApps (env : Env) : List Name → Except String Unit
  | [] => .ok ()
  | app :: rest =>
    match env.appStop app with
    | some e => .error ("lock aborted: app '" ++ .ofList app ++ "' failed to stop (" ++ e ++
        "). Stopped apps are not restarted automatically — " ++
        "see Apps page once the issue is resolved.")
    | none => stopApps env rest

/-- The name is what the machine is looked up by, and also what `stop` and `kill` are given. -/
def stopVms (env : Env) : List Name → List Vm → Except String (List Vm)
  | [], vms => .ok vms
  | vmName :: rest, vms =>
    match quiesceVm env (·.name = vmName) vmName vms with
    | (.error e, _) => .error ("lock aborted: VM '" ++ .ofList vmName ++
        "' didn't shut down gracefully and force-kill failed (" ++ e.message ++
        "). Manually stop the VM, then retry.")
    | (.ok (), vms) => stopVms env rest vms

/-- The machines as `FilesystemService::lock` finds them, or why it is not called. -/
def lockWithDependents (env : Env) (stores : Stores) (vms : List Vm) (fsName : Name) :
    Except String (List Vm) := do
  let deps := findDependents stores vms fsName
  .refuse (deps.stateErrors ≠ []) ("lock aborted because dependent state could not be verified: " ++
    String.intercalate "; " deps.stateErrors)
  stopApps env deps.apps
  stopVms env deps.vms vms

/-! ## When the lock is reached -/

/-- Every app can be stopped, and a kill ends every running machine it is given the id of. -/
structure Env.Willing (env : Env) : Prop where
  apps : ∀ app, env.appStop app = none
  kills : ∀ id, env.kill id = .killed

def Quiescent (env : Env) (stores : Stores) (vms : List Vm) (fsName : Name)
    (onFs : Disk → Prop) : Prop :=
  ∃ vms', lockWithDependents env stores vms fsName = .ok vms' ∧
    ∀ v ∈ vms', (∃ disk ∈ v.disks, onFs disk) → v.running = false

abbrev namesakeRunning (vms : List Vm) (name : Name) : Bool := isVmRunning (·.name = name) vms

variable {env : Env} {stores : Stores} {vms vms' : List Vm} {fsName : Name} {names : List Name}

theorem stopApps_willing (h : env.Willing) (apps : List Name) : stopApps env apps = .ok () := by
  induction apps with
  | nil => rfl
  | cons app rest ih =>
    rw [stopApps, h.apps]
    exact ih

theorem stopVms_of_stopped (h : ∀ n ∈ names, namesakeRunning vms n = false) :
    stopVms env names vms = .ok vms := by
  induction names with
  | nil => rfl
  | cons n rest ih =>
    rw [stopVms, quiesceVm_of_stopped (h n List.mem_cons_self)]
    exact ih fun m hm => h m (List.mem_cons_of_mem _ hm)

/-! A guest that goes down between the last poll and the kill makes the kill fail, whomever the
name addresses. -/

def lateEnv : Env where
  appStop _ := none
  powerdown _ := none
  shutdown _ := some (vmShutdownTimeout + 1)
  kill _ := .killed

theorem lateEnv_willing : lateEnv.Willing := ⟨fun _ => rfl, fun _ => rfl⟩

theorem pressed_lateEnv {t : ℕ} (ht : t ≤ vmShutdownTimeout) (key : Name) :
    pressed lateEnv key vms t = vms := by
  rw [pressed, if_neg]
  simp only [lateEnv, Option.any_some, decide_eq_true_eq]
  omega

theorem quiesceVm_lateEnv {is : Vm → Bool} (h : isVmRunning is vms) (key : Name) :
    ∃ e, (quiesceVm lateEnv is key vms).1 = .error e := by
  rw [quiesceVm, h]
  by_cases hrun : runningAt vms key
  · have hwait : waitUntilStopped (fun t => !isVmRunning is (pressed lateEnv key vms t))
        vmShutdownTimeout 0 = none := by
      rw [waitUntilStopped_eq_none]
      intro t _ ht
      rw [pressed_lateEnv (by omega), h]
      rfl
    have hstop : stop lateEnv key vms = .ok () := stop_of_running hrun
    have hoff : (lateEnv.shutdown key).any (· ≤ vmShutdownTimeout + 1) := by simp [lateEnv]
    have hdown : runningAt (setRunning false key vms) key = false := setRunning_false_stopped
    obtain ⟨e, hkill⟩ := kill_of_stopped hdown lateEnv
    simp only [hstop, hwait, pressed_of_off hoff, hkill]
    exact ⟨e, rfl⟩
  · have hrun : runningAt vms key = false := by simpa using hrun
    obtain ⟨e, hstop⟩ := stop_of_stopped hrun lateEnv
    obtain ⟨e', hkill⟩ := kill_of_stopped hrun lateEnv
    simp only [hstop, hkill]
    exact ⟨e', rfl⟩

theorem stopped_of_stopVms_lateEnv (h : stopVms lateEnv names vms = .ok vms') :
    vms' = vms ∧ ∀ n ∈ names, namesakeRunning vms n = false := by
  induction names with
  | nil =>
    cases h
    exact ⟨rfl, fun _ hn => by cases hn⟩
  | cons n rest ih =>
  by_cases hn : namesakeRunning vms n
  · obtain ⟨e, he⟩ := quiesceVm_lateEnv hn n
    rw [stopVms] at h
    split at h
    · cases h
    · next hq => simp [hq] at he
  have hn : namesakeRunning vms n = false := by simpa using hn
  rw [stopVms, quiesceVm_of_stopped hn] at h
  obtain ⟨hvms, hrest⟩ := ih h
  refine ⟨hvms, fun m hm => ?_⟩
  rcases List.mem_cons.1 hm with rfl | hm
  · exact hn
  · exact hrest m hm

theorem lockWithDependents_eq_ok (hw : env.Willing) :
    lockWithDependents env stores vms fsName = .ok vms' ↔
      (findDependents stores vms fsName).stateErrors = [] ∧
        stopVms env (findDependents stores vms fsName).vms vms = .ok vms' := by
  constructor
  · intro h
    obtain ⟨⟨⟩, hclean, h⟩ := Except.bind_eq_ok.1 h
    obtain ⟨⟨⟩, h⟩ := Except.rest_ok h
    exact ⟨not_not.1 (Except.refuse_eq_ok.1 hclean), h⟩
  rintro ⟨hclean, h⟩
  have happs := stopApps_willing hw (findDependents stores vms fsName).apps
  exact Except.bind_eq_ok.2 ⟨(), Except.refuse_eq_ok.2 (not_not.2 hclean),
    Except.bind_eq_ok.2 ⟨(), happs, h⟩⟩

theorem forall_mem_dependent_vms {p : Name → Prop} :
    (∀ n ∈ (findDependents stores vms fsName).vms, p n) ↔
      ∀ v ∈ vms, touchesFs stores fsName v → p v.name := by
  simp only [findDependents, findDependentsWithUuid, List.mem_map, List.mem_filter]
  constructor
  · intro h v hv ht
    exact h v.name ⟨v, ⟨hv, ht⟩, rfl⟩
  · rintro h n ⟨v, ⟨hv, ht⟩, rfl⟩
    exact h v hv ht

/-- **When the lock is reached.** It is called, with no machine of the filesystem running, exactly
if nothing had to be stopped. -/
theorem lock_reached_iff (stores : Stores) (vms : List Vm) (fsName : Name) (onFs : Disk → Prop) :
    (∀ env : Env, env.Willing → Quiescent env stores vms fsName onFs) ↔
      (findDependents stores vms fsName).stateErrors = [] ∧
        (∀ v ∈ vms, touchesFs stores fsName v → namesakeRunning vms v.name = false) ∧
        ∀ v ∈ vms, (∃ disk ∈ v.disks, onFs disk) → v.running = false := by
  constructor
  · intro h
    obtain ⟨vms', hlock, hquiet⟩ := h lateEnv lateEnv_willing
    obtain ⟨herrors, hstop⟩ := (lockWithDependents_eq_ok lateEnv_willing).1 hlock
    obtain ⟨rfl, hnames⟩ := stopped_of_stopVms_lateEnv hstop
    exact ⟨herrors, forall_mem_dependent_vms.1 hnames, hquiet⟩
  rintro ⟨herrors, hnames, hquiet⟩ env hw
  have hstop : stopVms env (findDependents stores vms fsName).vms vms = .ok vms :=
    stopVms_of_stopped (forall_mem_dependent_vms.2 hnames)
  exact ⟨vms, (lockWithDependents_eq_ok hw).2 ⟨herrors, hstop⟩, hquiet⟩

def tank : Name := "tank".toList

def web (running : Bool) : Vm where
  id := "7f3a".toList
  name := "web".toList
  disks := [⟨"/fs/tank/web.img".toList, none⟩]
  running := running

def emptyStores : Stores where
  mounted := some true
  subvolumes := .ok []
  appsConfig := .ok ⟨none, none⟩
  apps := .ok []
  backups := .ok []
  nfs := .ok []
  smb := .ok []
  iscsi := .ok []
  nvmeof := .ok []

theorem lock_reached_stopped : Quiescent lateEnv emptyStores [web false] tank
    fun disk => pathBelongsToFs disk.path tank := by
  refine (lock_reached_iff emptyStores [web false] tank _).2 ⟨rfl, ?_, ?_⟩ lateEnv lateEnv_willing
  all_goals
    intro v hv _
    rw [List.mem_singleton.1 hv]
    rfl

def promptEnv : Env where
  appStop _ := none
  powerdown _ := none
  shutdown _ := some 5
  kill _ := .killed

/-- The power button of the one running machine is never pressed: its name is no id. -/
theorem name_taken_for_id : promptEnv.Willing ∧ ([web true].map (·.id)).Nodup ∧
    lockWithDependents promptEnv emptyStores [web true] tank = .error
      ("lock aborted: VM 'web' didn't shut down gracefully and force-kill failed " ++
        "(VM not found: web). Manually stop the VM, then retry.") :=
  ⟨⟨fun _ => rfl, fun _ => rfl⟩, by decide, by rfl⟩

end Nasty.Cascade
