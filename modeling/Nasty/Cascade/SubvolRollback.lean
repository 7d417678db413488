import Nasty.Cascade.Dependents

/-!
# Rolling a subvolume back with its dependents

A rollback replaces a subvolume, so what uses it is stopped before and started again after: apps,
then virtual machines, then the SMB and NFS shares. `rollbackWithDependents` is the whole cascade;
an `Outcome` holds the world it leaves and the one in which the storage layer was asked to swap.

1. Each stage has one lemma that says what it changes: `stopApps_snd`, `quiesceVms_spec`,
   `setSharesEnabled_eq`.
2. `rollback_settled_iff` says for which failures and which initial states every dependent is as
   before and was down during the swap.
-/

namespace Nasty.Cascade.Rollback

open List

open Subvolumes (Subvolume SubvolumeError validateExistingSnapshotName)

/-! ## The world -/

structure Share where
  id : Name
  path : Name
  enabled : Bool

def Share.byId : FlagField Share Name where
  key := Share.id
  get := Share.enabled
  set b s := { s with enabled := b }
  key_set _ _ := rfl
  get_set _ _ := rfl

structure World where
  apps : Name → Bool
  vms : List Vm
  smb : List Share
  nfs : List Share

structure Faults extends Env where
  smbUpdate : Name → Option String
  nfsUpdate : Name → Option String
  /-- The name of the safety snapshot, or the error of the storage layer. -/
  swap : Except String Name

structure RollbackSnapshotRequest where
  filesystem : Name
  subvolume : Name
  snapshot : Name

structure Outcome where
  result : Except String Name
  /-- The world in which `SubvolumeService::rollback` was called. -/
  swapped : Option World
  world : World

/-! ## The cascade -/

def setApp (running : Bool) (app : Name) (apps : Name → Bool) : Name → Bool :=
  fun a => if a = app then running else apps a

def stopApps (env : Env) : List Name → (Name → Bool) → Except String Unit × (Name → Bool)
  | [], apps => (.ok (), apps)
  | app :: rest, apps =>
    match env.appStop app with
    | some e => (.error ("rollback aborted before any change: app '" ++ .ofList app ++
        "' failed to stop (" ++ e ++ ")"), apps)
    | none => stopApps env rest (setApp false app apps)

def resumeApps (names : List Name) (apps : Name → Bool) : Name → Bool :=
  names.foldl (fun apps app => setApp true app apps) apps

def resolveVmIds (vms : List Vm) (names : List Name) : List (Name × Name) :=
  names.filterMap fun n => (vms.find? (·.name = n)).map fun v => (v.id, n)

def quiesceVms (env : Env) : List (Name × Name) → List Vm → Except String Unit × List Vm
  | [], vms => (.ok (), vms)
  | (id, name) :: rest, vms =>
    match quiesceVm env (·.id = id) id vms with
    | (.error e, vms) => (.error ("rollback aborted: VM '" ++ .ofList name ++
        "' wouldn't shut down and force-kill failed (" ++ e.message ++
        "). Stopped apps were restarted; manually stop the VM and retry."), vms)
    | (.ok (), vms) => quiesceVms env rest vms

def setSharesEnabled (update : Name → Option String) (subvolPath : Name) (enabled : Bool) :
    List Share → List Share → List Name × List Share
  | [], shares => ([], shares)
  | s :: rest, shares =>
    if s.enabled ≠ enabled ∧ pathInSubvol s.path subvolPath then
      match update s.id with
      | some _ => setSharesEnabled update subvolPath enabled rest shares
      | none =>
        let (touched, shares) :=
          setSharesEnabled update subvolPath enabled rest (Share.byId.put enabled s.id shares)
        (s.id :: touched, shares)
    else setSharesEnabled update subvolPath enabled rest shares

def cascade (f : Faults) (subvolPath : Name) (deps : SubvolumeDependents) (w : World) : Outcome :=
  match stopApps f.toEnv deps.apps w.apps with
  | (.error e, apps) => ⟨.error e, none, { w with apps }⟩
  | (.ok (), apps) =>
    let vmIds := resolveVmIds w.vms deps.vms
    match quiesceVms f.toEnv vmIds w.vms with
    | (.error e, vms) => ⟨.error e, none, { w with apps := resumeApps deps.apps apps, vms }⟩
    | (.ok (), vms) =>
      let (smbIds, smb) := setSharesEnabled f.smbUpdate subvolPath false w.smb w.smb
      let (nfsIds, nfs) := setSharesEnabled f.nfsUpdate subvolPath false w.nfs w.nfs
      { result := f.swap
        swapped := some ⟨apps, vms, smb, nfs⟩
        world :=
          { apps := resumeApps deps.apps apps
            vms := Vm.byId.putAll true (vmIds.map (·.1)) vms
            smb := Share.byId.putAll true smbIds smb
            nfs := Share.byId.putAll true nfsIds nfs } }

def dependents? (stores : Stores) (vms : List Vm) (req : RollbackSnapshotRequest) :
    Option SubvolumeDependents :=
  (findAllSubvolumeDependents stores vms none).find? fun d =>
    d.filesystem = req.filesystem ∧ d.name = req.subvolume

def precheck (found : Except SubvolumeError Subvolume) (req : RollbackSnapshotRequest) :
    Except String Subvolume := do
  (validateExistingSnapshotName req.subvolume req.snapshot).mapError (·.message)
  let sv ← found.mapError (·.message)
  .refuse (sv.subvolumeType = .block ∨ sv.blockDevice.isSome)
    "rollback is not yet supported for block subvolumes (iSCSI / NVMe-oF / VM disks)"
  return sv

/-- `found` is the answer of `SubvolumeService::get`. -/
def rollbackWithDependents (f : Faults) (stores : Stores) (found : Except SubvolumeError Subvolume)
    (req : RollbackSnapshotRequest) (w : World) : Outcome :=
  match precheck found req with
  | .error e => ⟨.error e, none, w⟩
  | .ok sv =>
    cascade f (pathOf sv) ((dependents? stores w.vms req).getD .default) w

/-! ## Apps -/

section

variable {env : Env} {names : List Name} {apps : Name → Bool} {a : Name}

def stops (env : Env) (app : Name) : Bool := (env.appStop app).isNone

theorem stopApps_fst : (stopApps env names apps).1 = .ok () ↔ ∀ app ∈ names, stops env app := by
  induction names generalizing apps with
  | nil => simp [stopApps]
  | cons app rest ih =>
  rw [stopApps, forall_mem_cons, stops]
  cases env.appStop app with
  | some e => simp
  | none => simp [ih]

theorem stopApps_snd :
    (stopApps env names apps).2 a = (apps a && decide (a ∉ names.takeWhile (stops env))) := by
  induction names generalizing apps with
  | nil => simp [stopApps]
  | cons app rest ih =>
  rw [stopApps]
  cases happ : env.appStop app with
  | some e =>
    rw [takeWhile_cons_of_neg (by simp [stops, happ])]
    simp
  | none =>
    rw [takeWhile_cons_of_pos (by simp [stops, happ])]
    simp only [ih, setApp]
    by_cases ha : a = app <;> simp [ha]

theorem resumeApps_apply : resumeApps names apps a = (apps a || decide (a ∈ names)) := by
  induction names generalizing apps with
  | nil => simp [resumeApps]
  | cons app rest ih =>
    rw [resumeApps, foldl_cons, ← resumeApps, ih, setApp]
    by_cases ha : a = app <;> simp [ha]

end

/-! ## Virtual machines -/

section

variable {env : Env} {vms vms' : List Vm} {ids : List (Name × Name)} {id name x : Name}

def Stuck (env : Env) (vms : List Vm) (id : Name) : Prop := runningAt vms id ∧ env.Resists id

instance decidableStuck (env : Env) (vms : List Vm) (id : Name) : Decidable (Stuck env vms id) := by
  unfold Stuck; infer_instance

def turns (env : Env) (vms : List Vm) : List Name → List Name
  | [] => []
  | id :: rest => if Stuck env vms id then [id] else id :: turns env vms rest

theorem turns_congr (h : ∀ id, Stuck env vms' id ↔ Stuck env vms id) (ids : List Name) :
    turns env vms' ids = turns env vms ids := by
  induction ids with
  | nil => rfl
  | cons id rest ih => simp only [turns, h, ih]

theorem quiesceVm_runningAt (env : Env) (vms : List Vm) (id : Name) :
    ((∃ e, (quiesceVm env (·.id = id) id vms).1 = .error e) ↔ Stuck env vms id) ∧
      ∀ x, runningAt (quiesceVm env (·.id = id) id vms).2 x =
        (runningAt vms x && !decide (x = id ∧ env.Downs x)) := by
  by_cases h : runningAt vms id
  · obtain ⟨hfail, hvms⟩ := quiesceVm_by_id h env
    refine ⟨by rw [hfail, Stuck]; simp [h], fun x => ?_⟩
    rw [hvms]
    by_cases hdown : env.Downs id
    · rw [if_pos hdown, runningAt, FlagField.flagAt_put]
      by_cases hx : x = id <;> simp [hx, hdown]
    · by_cases hx : x = id <;> simp [hx, hdown]
  have hoff : isVmRunning (·.id = id) vms = false := by simpa [isVmRunning_byId] using h
  rw [quiesceVm_of_stopped hoff]
  refine ⟨by simp [Stuck, h], fun x => ?_⟩
  by_cases hx : x = id
  · rw [hx, ← isVmRunning_byId, hoff]
    rfl
  · simp [hx]

theorem quiesceVms_spec : ((quiesceVms env ids vms).1 = .ok () ↔
      ∀ id ∈ ids.map (·.1), ¬ Stuck env vms id) ∧
    ∀ x, runningAt (quiesceVms env ids vms).2 x =
      (runningAt vms x && !decide (x ∈ turns env vms (ids.map (·.1)) ∧ env.Downs x)) := by
  induction ids generalizing vms with
  | nil => simp [quiesceVms, turns]
  | cons i rest ih =>
  obtain ⟨id, name⟩ := i
  obtain ⟨hfail, hrun⟩ := quiesceVm_runningAt env vms id
  rw [quiesceVms, map_cons, turns, forall_mem_cons]
  cases hq : quiesceVm env (·.id = id) id vms with
  | mk r vms' =>
    simp only [hq] at hfail hrun
    cases r with
    | error e =>
      have hstuck : Stuck env vms id := hfail.1 ⟨e, rfl⟩
      simp [hstuck, hrun]
    | ok =>
    have hstuck : ¬ Stuck env vms id := fun h => by
      obtain ⟨e, he⟩ := hfail.2 h
      cases he
    -- Who went down did not resist, so nobody's turn later on fails for another reason.
    have hsame (x : Name) : Stuck env vms' x ↔ Stuck env vms x := by
      rw [Stuck, Stuck, hrun]
      by_cases hx : x = id
      · subst hx
        constructor
        · rintro ⟨h, hres⟩
          rw [Bool.and_eq_true] at h
          exact absurd ⟨h.1, hres⟩ hstuck
        · intro h
          exact absurd h hstuck
      · simp [hx]
    obtain ⟨hrest, hall⟩ := @ih vms'
    simp only [hrest, hall, hsame, turns_congr hsame, hrun, hstuck, not_false_eq_true, true_and]
    intro x
    by_cases hx : x = id
    · subst hx
      by_cases hd : env.Downs x <;> simp [hd]
    · simp [hx]

theorem map_id_quiesceVms : (quiesceVms env ids vms).2.map (·.id) = vms.map (·.id) := by
  induction ids generalizing vms with
  | nil => rfl
  | cons i rest ih =>
  obtain ⟨id, name⟩ := i
  have hvms : (quiesceVm env (·.id = id) id vms).2.map (·.id) = vms.map (·.id) := by
    by_cases h : runningAt vms id
    · rw [(quiesceVm_by_id h env).2]
      split
      · exact FlagField.map_key_put (F := Vm.byId)
      · rfl
    · rw [quiesceVm_of_stopped (by simpa [isVmRunning_byId] using h)]
  rw [quiesceVms]
  split
  · next hq =>
    rw [hq] at hvms
    exact hvms
  next hq =>
  rw [hq] at hvms
  rw [ih]
  exact hvms

end

/-! ## Shares -/

section

variable {update : Name → Option String} {path : Name} {listed shares : List Share} {s : Share}

def disabled (update : Name → Option String) (path : Name) (s : Share) : Bool :=
  s.enabled && pathInSubvol s.path path && (update s.id).isNone

def touched (update : Name → Option String) (path : Name) (listed : List Share) : List Name :=
  (listed.filter (disabled update path)).map (·.id)

theorem setSharesEnabled_eq : setSharesEnabled update path false listed shares =
    (touched update path listed, Share.byId.putAll false (touched update path listed) shares) := by
  induction listed generalizing shares with
  | nil => rfl
  | cons s rest ih =>
  rw [setSharesEnabled, touched, filter_cons]
  by_cases hs : s.enabled ≠ false ∧ pathInSubvol s.path path
  · rw [if_pos hs]
    cases hu : update s.id with
    | some e =>
      rw [if_neg (by simp [disabled, hu])]
      exact ih
    | none =>
      rw [if_pos (by simpa [disabled, hu] using hs)]
      simp only [ih]
      rfl
  · rw [if_neg hs, if_neg (by simpa [disabled] using fun h1 h2 => absurd ⟨by simpa using h1, h2⟩ hs)]
    exact ih

section

variable (hids : (shares.map (·.id)).Nodup)
include hids

theorem mem_touched (hs : s ∈ shares) :
    s.id ∈ touched update path shares ↔ disabled update path s := by
  rw [touched, mem_map]
  constructor
  · rintro ⟨t, ht, hid⟩
    rw [mem_filter] at ht
    rw [← inj_on_of_nodup_map hids ht.1 hs hid]
    exact ht.2
  · intro h
    exact ⟨s, mem_filter.2 ⟨hs, h⟩, rfl⟩

theorem shares_restored (hs : s ∈ shares) :
    Share.byId.flagAt (Share.byId.putAll true (touched update path shares)
      (Share.byId.putAll false (touched update path shares) shares)) s.id = s.enabled := by
  rw [FlagField.flagAt_putAll, FlagField.flagAt_putAll, FlagField.map_key_putAll]
  by_cases ht : s.id ∈ touched update path shares
  · have hmem : s.id ∈ shares.map Share.byId.key := mem_map_of_mem hs
    have hd := (mem_touched hids hs).1 ht
    simp only [disabled, Bool.and_eq_true] at hd
    rw [if_pos ht, hd.1.1]
    simpa using hmem
  · rw [if_neg ht, if_neg ht]
    exact FlagField.flagAt_of_mem hids hs

theorem shares_quiet_iff :
    (∀ s ∈ shares, pathInSubvol s.path path →
      Share.byId.flagAt (Share.byId.putAll false (touched update path shares) shares) s.id = false) ↔
    ∀ s ∈ shares, pathInSubvol s.path path → s.enabled → update s.id = none := by
  refine forall₂_congr fun s hs => imp_congr_right fun hpath => ?_
  have hflag : Share.byId.flagAt shares s.id = s.enabled :=
    FlagField.flagAt_of_mem hids hs
  rw [FlagField.flagAt_putAll, hflag]
  by_cases ht : s.id ∈ touched update path shares
  · have hd := (mem_touched hids hs).1 ht
    simp only [disabled, Bool.and_eq_true, Option.isNone_iff_eq_none] at hd
    simp [ht, hd.2]
  rw [if_neg ht]
  rw [mem_touched hids hs] at ht
  cases he : s.enabled with
  | false => simp
  | true => simpa [disabled, he, hpath] using ht

end

end

/-! ## When every dependent is left as it was -/

structure Quiet (names : List Name) (deps : List Vm) (path : Name) (w q : World) : Prop where
  apps : ∀ a ∈ names, q.apps a = false
  vms : ∀ v ∈ deps, runningAt q.vms v.id = false
  smb : ∀ s ∈ w.smb, pathInSubvol s.path path → Share.byId.flagAt q.smb s.id = false
  nfs : ∀ s ∈ w.nfs, pathInSubvol s.path path → Share.byId.flagAt q.nfs s.id = false

/-- Every dependent is as it was in `w`, and was down when the storage layer was called. -/
structure Settled (names : List Name) (deps : List Vm) (path : Name) (w : World) (o : Outcome) :
    Prop where
  apps : ∀ a ∈ names, o.world.apps a = w.apps a
  vms : ∀ v ∈ deps, runningAt o.world.vms v.id = v.running
  smb : ∀ s ∈ w.smb, pathInSubvol s.path path → Share.byId.flagAt o.world.smb s.id = s.enabled
  nfs : ∀ s ∈ w.nfs, pathInSubvol s.path path → Share.byId.flagAt o.world.nfs s.id = s.enabled
  quiet : ∀ q ∈ o.swapped, Quiet names deps path w q

def Yields (update : Name → Option String) (path : Name) (shares : List Share) : Prop :=
  ∀ s ∈ shares, pathInSubvol s.path path → s.enabled → update s.id = none

/-- If an app cannot be stopped, those before it were stopped already. Otherwise all were running,
and some machine cannot be stopped before any went down, or all are found and go down and all shares
can be disabled. -/
def Spared (f : Faults) (names : List Name) (deps : List Vm) (ids : List Name) (path : Name)
    (w : World) : Prop :=
  if ∀ a ∈ names, stops f.toEnv a then
    (∀ a ∈ names, w.apps a) ∧
    if ∀ id ∈ ids, ¬ Stuck f.toEnv w.vms id then
      (∀ v ∈ deps, (v.running ↔ v.id ∈ ids) ∧ (v.running → f.Downs v.id)) ∧
        Yields f.smbUpdate path w.smb ∧ Yields f.nfsUpdate path w.nfs
    else ∀ v ∈ deps, v.running → v.id ∈ turns f.toEnv w.vms ids → ¬ f.Downs v.id
  else ∀ a ∈ names.takeWhile (stops f.toEnv), w.apps a = false

structure World.Keyed (w : World) : Prop where
  vms : (w.vms.map (·.id)).Nodup
  smb : (w.smb.map (·.id)).Nodup
  nfs : (w.nfs.map (·.id)).Nodup

section Settled

variable {f : Faults} {path : Name} {deps : SubvolumeDependents} {w : World} {vms : List Vm}

theorem World.Keyed.runningAt (hw : w.Keyed) {v : Vm} (hv : v ∈ w.vms) :
    runningAt w.vms v.id = v.running := FlagField.flagAt_of_mem hw.vms hv

variable {names : List Name}

theorem settled_aborted_iff (hw : w.Keyed) {apps : Name → Bool} (e : String) :
    Settled names vms path w ⟨.error e, none, { w with apps, vms := vms' }⟩ ↔
      (∀ a ∈ names, apps a = w.apps a) ∧ ∀ v ∈ vms, runningAt vms' v.id = v.running := by
  constructor
  · intro h
    exact ⟨h.apps, h.vms⟩
  · rintro ⟨happs, hvms⟩
    exact ⟨happs, hvms, fun _ hs _ => FlagField.flagAt_of_mem hw.smb hs,
      fun _ hs _ => FlagField.flagAt_of_mem hw.nfs hs, fun _ hq => by cases hq⟩

theorem settled_app_failed (hw : w.Keyed) (hvms : ∀ v ∈ vms, v ∈ w.vms)
    (e : String) : Settled names vms path w
      ⟨.error e, none, { w with apps := (stopApps f.toEnv names w.apps).2 }⟩ ↔
    ∀ a ∈ names.takeWhile (stops f.toEnv), w.apps a = false := by
  rw [settled_aborted_iff hw]
  constructor
  · rintro ⟨happs, -⟩ a ha
    have hsame := happs a (( takeWhile_prefix _).subset ha)
    rw [stopApps_snd] at hsame
    simpa [ha] using hsame.symm
  intro h
  refine ⟨fun a _ => ?_, fun v hv => hw.runningAt (hvms v hv)⟩
  rw [stopApps_snd]
  by_cases ha : a ∈ names.takeWhile (stops f.toEnv)
  · rw [h a ha]
    rfl
  · simp [ha]

variable {ids : List (Name × Name)} {req : RollbackSnapshotRequest}

theorem settled_vm_failed (hw : w.Keyed) (hvms : ∀ v ∈ vms, v ∈ w.vms)
    (apps : Name → Bool) (e : String) : Settled names vms path w
      ⟨.error e, none, { w with apps := resumeApps names apps
                                vms := (quiesceVms f.toEnv ids w.vms).2 }⟩ ↔
    (∀ a ∈ names, w.apps a) ∧
      ∀ v ∈ vms, v.running → v.id ∈ turns f.toEnv w.vms (ids.map (·.1)) → ¬ f.Downs v.id := by
  rw [settled_aborted_iff hw]
  refine and_congr (forall₂_congr fun a ha => ?_) (forall₂_congr fun v hv => ?_)
  · rw [resumeApps_apply, decide_eq_true ha, Bool.or_true]
    exact eq_comm
  · rw [quiesceVms_spec.2, hw.runningAt (hvms v hv)]
    cases v.running <;> simp [imp_iff_not_or]

theorem turns_of_not_stuck {env : Env} {ids : List Name} (h : ∀ id ∈ ids, ¬ Stuck env w.vms id) :
    turns env w.vms ids = ids := by
  induction ids with
  | nil => rfl
  | cons id rest ih =>
    rw [forall_mem_cons] at h
    rw [turns, if_neg h.1, ih h.2]

theorem vm_settled_iff (hw : w.Keyed) {v : Vm} (hv : v ∈ w.vms)
    (hstuck : ∀ id ∈ ids.map (·.1), ¬ Stuck f.toEnv w.vms id) :
    runningAt (Vm.byId.putAll true (ids.map (·.1)) (quiesceVms f.toEnv ids w.vms).2) v.id =
        v.running ∧ runningAt (quiesceVms f.toEnv ids w.vms).2 v.id = false ↔
      (v.running ↔ v.id ∈ ids.map (·.1)) ∧ (v.running → f.Downs v.id) := by
  have hmem : v.id ∈ (quiesceVms f.toEnv ids w.vms).2.map Vm.byId.key := by
    have hids : (quiesceVms f.toEnv ids w.vms).2.map Vm.byId.key = w.vms.map Vm.byId.key :=
      map_id_quiesceVms
    rw [hids]
    exact mem_map_of_mem hv
  have hrun : runningAt (quiesceVms f.toEnv ids w.vms).2 v.id =
      (v.running && !decide (v.id ∈ ids.map (·.1) ∧ f.Downs v.id)) := by
    rw [quiesceVms_spec.2, turns_of_not_stuck hstuck, hw.runningAt hv]
  unfold runningAt at hrun ⊢
  rw [FlagField.flagAt_putAll]
  by_cases hid : v.id ∈ ids.map (·.1)
  · rw [hrun]
    simp only [hmem, hid]
    cases v.running <;> simp
  · rw [hrun]
    cases v.running <;> simp [hid]

theorem settled_swapped (hw : w.Keyed) (hvms : ∀ v ∈ vms, v ∈ w.vms)
    (hstops : ∀ a ∈ names, stops f.toEnv a)
    (hstuck : ∀ id ∈ ids.map (·.1), ¬ Stuck f.toEnv w.vms id) (r : Except String Name) :
    Settled names vms path w
      { result := r
        swapped := some
          { apps := (stopApps f.toEnv names w.apps).2
            vms := (quiesceVms f.toEnv ids w.vms).2
            smb := Share.byId.putAll false (touched f.smbUpdate path w.smb) w.smb
            nfs := Share.byId.putAll false (touched f.nfsUpdate path w.nfs) w.nfs }
        world :=
          { apps := resumeApps names (stopApps f.toEnv names w.apps).2
            vms := Vm.byId.putAll true (ids.map (·.1)) (quiesceVms f.toEnv ids w.vms).2
            smb := Share.byId.putAll true (touched f.smbUpdate path w.smb)
              (Share.byId.putAll false (touched f.smbUpdate path w.smb) w.smb)
            nfs := Share.byId.putAll true (touched f.nfsUpdate path w.nfs)
              (Share.byId.putAll false (touched f.nfsUpdate path w.nfs) w.nfs) } } ↔
    (∀ a ∈ names, w.apps a) ∧
      (∀ v ∈ vms, (v.running ↔ v.id ∈ ids.map (·.1)) ∧ (v.running → f.Downs v.id)) ∧
      Yields f.smbUpdate path w.smb ∧ Yields f.nfsUpdate path w.nfs := by
  constructor
  · intro h
    have hq := h.quiet _ rfl
    refine ⟨fun a ha => ?_, fun v hv => (vm_settled_iff hw (hvms v hv) hstuck).1
      ⟨h.vms v hv, hq.vms v hv⟩, (shares_quiet_iff hw.smb).1 hq.smb,
      (shares_quiet_iff hw.nfs).1 hq.nfs⟩
    have hsame : resumeApps names (stopApps f.toEnv names w.apps).2 a = w.apps a := h.apps a ha
    rw [resumeApps_apply, decide_eq_true ha, Bool.or_true] at hsame
    exact hsame.symm
  rintro ⟨happs, hvm, hsmb, hnfs⟩
  have hone v hv := (vm_settled_iff hw (hvms v hv) hstuck).2 (hvm v hv)
  refine ⟨fun a ha => ?_, fun v hv => (hone v hv).1, fun s hs _ => shares_restored hw.smb hs,
    fun s hs _ => shares_restored hw.nfs hs, ?_⟩
  · change resumeApps names (stopApps f.toEnv names w.apps).2 a = w.apps a
    rw [resumeApps_apply, decide_eq_true ha, Bool.or_true, happs a ha]
  rintro q ⟨⟩
  refine ⟨fun a ha => ?_, fun v hv => (hone v hv).2, (shares_quiet_iff hw.smb).2 hsmb,
    (shares_quiet_iff hw.nfs).2 hnfs⟩
  have htake : names.takeWhile (stops f.toEnv) = names := takeWhile_eq_self_iff.2 hstops
  change (stopApps f.toEnv names w.apps).2 a = false
  rw [stopApps_snd, htake]
  simp [ha]

theorem cascade_settled_iff (hw : w.Keyed) (hvms : ∀ v ∈ vms, v ∈ w.vms) :
    Settled deps.apps vms path w (cascade f path deps w) ↔
      Spared f deps.apps vms ((resolveVmIds w.vms deps.vms).map (·.1)) path w := by
  rw [cascade, Spared]
  have hfst : (stopApps f.toEnv deps.apps w.apps).1 = .ok () ↔ _ := stopApps_fst
  cases hs : stopApps f.toEnv deps.apps w.apps with
  | mk r apps =>
    have happs : apps = (stopApps f.toEnv deps.apps w.apps).2 := by rw [hs]
    rw [hs] at hfst
    cases r with
    | error e =>
      rw [if_neg (fun h => by cases hfst.2 h), happs]
      exact settled_app_failed hw hvms e
    | ok =>
    have hstops := hfst.1 rfl
    rw [if_pos hstops]
    have hfst' : (quiesceVms f.toEnv (resolveVmIds w.vms deps.vms) w.vms).1 = .ok () ↔ _ :=
      quiesceVms_spec.1
    cases hq : quiesceVms f.toEnv (resolveVmIds w.vms deps.vms) w.vms with
    | mk r vms' =>
      have hvms' : vms' = (quiesceVms f.toEnv (resolveVmIds w.vms deps.vms) w.vms).2 := by rw [hq]
      rw [hq] at hfst'
      cases r with
      | error e =>
        rw [if_neg (fun h => by cases hfst'.2 h)]
        simp only [hq]
        rw [hvms']
        exact settled_vm_failed hw hvms apps e
      | ok =>
      have hstuck := hfst'.1 rfl
      rw [if_pos hstuck]
      simp only [hq, setSharesEnabled_eq]
      rw [hvms', happs]
      exact settled_swapped hw hvms hstops hstuck f.swap

/-! ## The request -/

def dependentApps (stores : Stores) (vms : List Vm) (req : RollbackSnapshotRequest) : List Name :=
  ((dependents? stores vms req).getD .default).apps

def dependentVms (stores : Stores) (vms : List Vm) (req : RollbackSnapshotRequest) : List Vm :=
  match dependents? stores vms req with
  | some d => vms.filter fun vm => d.path ∈ vmOwners (entries stores.subvolumes) vm
  | none => []

def addressedIds (stores : Stores) (vms : List Vm) (req : RollbackSnapshotRequest) : List Name :=
  ((dependentVms stores vms req).filterMap fun v => vms.find? (·.name = v.name)).map (·.id)

def subvolumePath : Except SubvolumeError Subvolume → Name
  | .ok sv => pathOf sv
  | .error _ => []

theorem dependents_vms (stores : Stores) (vms : List Vm) (req : RollbackSnapshotRequest) :
    ((dependents? stores vms req).getD .default).vms =
      (dependentVms stores vms req).map (·.name) := by
  rw [dependentVms]
  cases hd : dependents? stores vms req with
  | none => rfl
  | some d =>
  have hmem := mem_of_find?_eq_some hd
  rw [findAllSubvolumeDependents, mem_filterMap] at hmem
  obtain ⟨path, -, hpath⟩ := hmem
  obtain ⟨sv, -, rfl⟩ := Option.map_eq_some_iff.1 hpath
  rfl

theorem map_fst_resolveVmIds (stores : Stores) (vms : List Vm) (req : RollbackSnapshotRequest) :
    (resolveVmIds vms ((dependents? stores vms req).getD .default).vms).map (·.1) =
      addressedIds stores vms req := by
  rw [dependents_vms, resolveVmIds, addressedIds, filterMap_map, map_filterMap,
    map_filterMap]
  refine filterMap_congr fun v _ => ?_
  simp only [Function.comp_apply, Option.map_map]
  rfl

theorem mem_of_mem_dependentVms {stores : Stores} {v : Vm} (h : v ∈ dependentVms stores vms req) :
    v ∈ vms := by
  rw [dependentVms] at h
  split at h
  · exact mem_of_mem_filter h
  · cases h

theorem found_of_precheck {found : Except SubvolumeError Subvolume} {sv : Subvolume}
    (h : precheck found req = .ok sv) : found = .ok sv := by
  obtain ⟨⟨⟩, h⟩ := Except.rest_ok h
  obtain ⟨sv', hfound, h⟩ := Except.bind_eq_ok.1 h
  obtain ⟨⟨⟩, h⟩ := Except.rest_ok h
  cases h
  cases found with
  | error e => cases hfound
  | ok sv' =>
    cases hfound
    rfl

/-- **When a rollback leaves its dependents as they were.** For every failure of the steps before
and of the swap itself. -/
theorem rollback_settled_iff (f : Faults) (stores : Stores)
    (found : Except SubvolumeError Subvolume) (req : RollbackSnapshotRequest) (w : World)
    (hw : w.Keyed) :
    Settled (dependentApps stores w.vms req) (dependentVms stores w.vms req) (subvolumePath found) w
        (rollbackWithDependents f stores found req w) ↔
      (precheck found req).isOk = false ∨
        Spared f (dependentApps stores w.vms req) (dependentVms stores w.vms req)
          (addressedIds stores w.vms req) (subvolumePath found) w := by
  rw [rollbackWithDependents]
  cases hpre : precheck found req with
  | error e =>
    have hsame : Settled (dependentApps stores w.vms req) (dependentVms stores w.vms req)
        (subvolumePath found) w ⟨.error e, none, w⟩ :=
      (settled_aborted_iff hw e).2 ⟨fun _ _ => rfl,
        fun v hv => hw.runningAt (mem_of_mem_dependentVms hv)⟩
    exact ⟨fun _ => .inl rfl, fun _ => hsame⟩
  | ok sv =>
  rw [found_of_precheck hpre, ← map_fst_resolveVmIds]
  refine (cascade_settled_iff hw fun v hv => mem_of_mem_dependentVms hv).trans ⟨.inr, ?_⟩
  rintro (h | h)
  · cases h
  · exact h

end Settled

def photos : Subvolume where
  name := "photos".toList
  filesystem := "tank".toList
  subvolumeType := .filesystem
  quotaBytes := none
  volsizeBytes := none
  blockDevice := none
  blockVolumeId := none
  blockFilesystem := none
  blockFilesystemUuid := none
  owner := none
  directIo := false
  created := true

def viewer : Name := "viewer".toList

def database : Name := "database".toList

/-- Docker keeps its data in the subvolume, so both apps depend on it. -/
def photoStores : Stores where
  mounted := some true
  subvolumes := .ok [photos]
  appsConfig := .ok ⟨some "/fs/tank/photos/docker".toList, none⟩
  apps := .ok [database, viewer]
  backups := .ok []
  nfs := .ok []
  smb := .ok []
  iscsi := .ok []
  nvmeof := .ok []

def request : RollbackSnapshotRequest := ⟨"tank".toList, "photos".toList, "monday".toList⟩

def render : Vm where
  id := "7f3a".toList
  name := "render".toList
  disks := [⟨"/fs/tank/photos/render.img".toList, none⟩]
  running := true

def busy : World where
  apps _ := true
  vms := [render]
  smb := [⟨"s1".toList, "/fs/tank/photos/2024".toList, true⟩]
  nfs := []

theorem busy_keyed : busy.Keyed := ⟨by decide, by decide, by decide⟩

def noFaults : Faults where
  appStop _ := none
  powerdown _ := none
  shutdown _ := some 5
  kill _ := .killed
  smbUpdate _ := none
  nfsUpdate _ := none
  swap := .error "no such snapshot"

theorem rollback_settled_busy : Settled [database, viewer] [render] "/fs/tank/photos".toList busy
    (rollbackWithDependents noFaults photoStores (.ok photos) request busy) := by
  refine (rollback_settled_iff noFaults photoStores (.ok photos) request busy busy_keyed).2 (.inr ?_)
  refine ⟨fun _ _ => rfl, ?_, fun _ _ _ _ => rfl, fun _ _ _ _ => rfl⟩
  intro v hv
  rw [mem_singleton.1 hv]
  decide

/-- The second app cannot be stopped; the first is left stopped. -/
theorem first_app_left_stopped : database ∈ dependentApps photoStores busy.vms request ∧
    let o := rollbackWithDependents
      { noFaults with appStop := fun app => if app = viewer then some "timeout" else none }
      photoStores (.ok photos) request busy
    o.result = .error "rollback aborted before any change: app 'viewer' failed to stop (timeout)" ∧
      busy.apps database = true ∧ o.world.apps database = false := by
  refine ⟨by decide, ?_, rfl, ?_⟩
  · rfl
  · decide

end Nasty.Cascade.Rollback
